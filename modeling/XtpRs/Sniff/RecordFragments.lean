import XtpRs.Sniff.ServerName

/-!
# A ClientHello in several records

A handshake message may be cut into TLS records in any way, also within its own header.
`sniff_tls_sni_from_prefix` of `src/sniff/tls.rs` joins the payloads: with all records there, it
answers with the result for the body of the message, and with only a part of them it asks for more.

## Main definitions

* `helloMessage`: the handshake message of a body.
* `Fragment`: a record with a piece of the message.

## Main results

* `recordLoop_fragments`, `recordLoop_cut`: the loop over all records and over a part of them.
* `sniffTlsSniFromPrefix_fragments`: the result does not depend on how the message is cut.
-/

namespace XtpRs.Sniff

open Lib

/-- The handshake message of type ClientHello with a body. -/
def helloMessage (body : Bytes) : Bytes :=
  0x01 :: (beBytes 3 body.length ++ body)

theorem length_helloMessage (body : Bytes) : (helloMessage body).length = 4 + body.length := by
  rw [helloMessage, List.length_cons, List.length_append, length_beBytes]
  omega

/-- A record with a piece of a handshake message. -/
structure Fragment where
  minor : UInt8
  payload : Bytes
  payload_ne_nil : payload ≠ []
  length_le : payload.length ≤ maxTlsRecordPayload

namespace Fragment

variable (f : Fragment)

/-- Content type, version and length. -/
def header : Bytes := 0x16 :: 0x03 :: f.minor :: beBytes 2 f.payload.length

def bytes : Bytes := f.header ++ f.payload

theorem length_header : f.header.length = 5 := by
  simp only [header, List.length_cons, length_beBytes]

theorem length_bytes : f.bytes.length = 5 + f.payload.length := by
  rw [bytes, List.length_append, length_header]

theorem length_payload_pos : 0 < f.payload.length :=
  List.length_pos_iff.mpr f.payload_ne_nil

variable {f} {buf t : Bytes} {off : ℕ}

/-- A record whose header is there. -/
theorem readRecord_of_header (h : Remaining buf off (f.header ++ t)) :
    readRecord buf off =
      if buf.length < off + f.bytes.length then .error .insufficientPrefix
      else .ok (off + f.bytes.length) := by
  have hpos := f.length_payload_pos
  have hle := f.length_le
  have hlength := h.length_eq
  rw [List.length_append, length_header] at hlength
  have htype : buf.getD off 0 = 0x16 := by
    rw [List.getD_eq_getElem?_getD, h.getElem?_head]
    rfl
  have hversion : buf.getD (off + 1) 0 = 0x03 := by
    rw [List.getD_eq_getElem?_getD, h.advance_cons.getElem?_head]
    rfl
  have hlen : beNat (slice buf (off + 3) (off + 3 + 2)) = f.payload.length := by
    have hslice := h.advance_cons.advance_cons.advance_cons.slice_self
    rw [length_beBytes] at hslice
    rw [hslice, beNat_beBytes (by rw [maxTlsRecordPayload] at hle; omega)]
  rw [readRecord, htype, hversion, if_neg (by simp), if_neg (by simp)]
  show (beU16 (slice buf (off + 3) (off + 3 + 2)) >>= fun recordLen => _) = _
  rw [beU16_slice (by omega), hlen, f.length_bytes, ← Nat.add_assoc]
  exact if_neg (by omega)

/-- The payload of a record. -/
theorem slice_payload (h : Remaining buf off (f.bytes ++ t)) :
    slice buf (off + 5) (off + f.bytes.length) = f.payload := by
  rw [bytes, List.append_assoc] at h
  have hpayload := h.advance.slice_self
  rw [length_header] at hpayload
  rwa [length_bytes, ← Nat.add_assoc]

end Fragment

/-! ### The state of the loop -/

/-- The length that the loop knows after some bytes of the message. -/
def knownTotal (body handshake : Bytes) : Option ℕ :=
  if 4 ≤ handshake.length then some (helloMessage body).length else none

variable {body done payload rest : Bytes} {maxLen : ℕ}

/-- A beginning of the message that has its header. -/
theorem exists_of_four_le {handshake rest : Bytes}
    (hsplit : handshake ++ rest = helloMessage body) (hfour : 4 ≤ handshake.length) :
    ∃ t, handshake = 0x01 :: (beBytes 3 body.length ++ t) := by
  have hlength : (0x01 :: beBytes 3 body.length).length = 4 := by
    rw [List.length_cons, length_beBytes]
  have hheader : (0x01 :: beBytes 3 body.length) <+: handshake := by
    refine List.prefix_of_prefix_length_le ⟨body, ?_⟩ ⟨rest, hsplit⟩ (by rw [hlength]; exact hfour)
    rw [helloMessage]
    rfl
  obtain ⟨t, rfl⟩ := hheader
  exact ⟨t, rfl⟩

/-- The header of the message is read once it is there. -/
theorem updateNeededTotal_knownTotal (hbody : body.length < 256 ^ 3)
    (hmax : (helloMessage body).length ≤ maxLen)
    (hsplit : done ++ payload ++ rest = helloMessage body) :
    updateNeededTotal maxLen (done ++ payload) (knownTotal body done) =
      .ok (knownTotal body (done ++ payload)) := by
  rw [updateNeededTotal]
  by_cases hdone : 4 ≤ done.length
  · have hfour : 4 ≤ (done ++ payload).length := by
      rw [List.length_append]
      omega
    rw [knownTotal, knownTotal, if_pos hdone, if_pos hfour]
    rfl
  · rw [knownTotal, knownTotal, if_neg hdone]
    by_cases hfour : 4 ≤ (done ++ payload).length
    · obtain ⟨t, ht⟩ := exists_of_four_le hsplit hfour
      have hslice : slice (done ++ payload) 1 (1 + 3) = beBytes 3 body.length := by
        have hahead := (Remaining.start (done ++ payload))
        rw [ht] at hahead ⊢
        have hslice := hahead.advance_cons.slice_self
        rwa [length_beBytes, Nat.zero_add] at hslice
      have hlen : beU24 (slice (done ++ payload) 1 4) = .ok body.length := by
        rw [hslice]
        exact beU24_beBytes hbody
      have htype : (done ++ payload).getD 0 0 = 0x01 := by
        rw [ht]
        rfl
      rw [if_pos hfour, if_pos (by simpa using hfour), htype, if_neg (by simp), hlen]
      rw [length_helloMessage] at hmax ⊢
      exact if_neg (not_lt.mpr hmax)
    · rw [if_neg hfour, if_neg (by simpa using hfour)]

/-! ### Rounds of the loop -/

variable {f : Fragment} {buf t : Bytes} {off fuel : ℕ} {saw : Bool}

/-- A round takes the record that lies ahead. -/
theorem recordLoop_fragment (hbody : body.length < 256 ^ 3)
    (hmax : (helloMessage body).length ≤ maxLen) (h : Remaining buf off (f.bytes ++ t))
    (hsplit : done ++ f.payload ++ rest = helloMessage body) :
    recordLoop buf maxLen (fuel + 1) off done (knownTotal body done) saw =
      if rest = [] then parseSniFromClientHelloBody body
      else recordLoop buf maxLen fuel (off + f.bytes.length) (done ++ f.payload)
        (knownTotal body (done ++ f.payload)) true := by
  have hlength := h.length_eq
  have hbytes := f.length_bytes
  rw [List.length_append] at hlength
  have hrecord : readRecord buf off = .ok (off + f.bytes.length) := by
    have hheader := h
    rw [Fragment.bytes, List.append_assoc] at hheader
    rw [Fragment.readRecord_of_header hheader, if_neg (by omega)]
  rw [recordLoop, if_neg (by omega), if_neg (by omega), recordRound, hrecord]
  show (updateNeededTotal maxLen (done ++ slice buf (off + 5) (off + f.bytes.length))
    (knownTotal body done) >>= fun neededTotal => _) = _
  rw [Fragment.slice_payload h, updateNeededTotal_knownTotal hbody hmax hsplit]
  have hmessage := congrArg List.length hsplit
  rw [List.length_append, length_helloMessage] at hmessage
  rw [knownTotal]
  by_cases hrest : rest = []
  · rw [hrest, List.append_nil] at hsplit
    rw [hrest, List.length_nil] at hmessage
    have hbodySlice : slice (done ++ f.payload) 4 (4 + body.length) = body := by
      have hahead : Remaining (done ++ f.payload) 0
          (0x01 :: (beBytes 3 body.length ++ (body ++ []))) := by
        rw [List.append_nil, hsplit]
        exact Remaining.start _
      have hslice := hahead.advance_cons.advance.slice_self
      rwa [length_beBytes] at hslice
    rw [if_pos hrest, if_pos (by omega), length_helloMessage]
    show (if 4 + body.length ≤ (done ++ f.payload).length then
      parseSniFromClientHelloBody (slice (done ++ f.payload) 4 (4 + body.length)) else _) = _
    rw [hbodySlice]
    exact if_pos (by omega)
  · have hpos := List.length_pos_iff.mpr hrest
    rw [if_neg hrest]
    by_cases hfour : 4 ≤ (done ++ f.payload).length
    · rw [if_pos hfour]
      refine if_neg ?_
      rw [length_helloMessage]
      omega
    · rw [if_neg hfour]
      rfl

/-- All records of the message. -/
theorem recordLoop_fragments {fragments : List Fragment} {suffix : Bytes}
    (hbody : body.length < 256 ^ 3) (hmax : (helloMessage body).length ≤ maxLen)
    (h : Remaining buf off (fragments.flatMap Fragment.bytes ++ suffix))
    (hsplit : done ++ fragments.flatMap Fragment.payload = helloMessage body)
    (hne : fragments ≠ []) (hfuel : fragments.length ≤ fuel) :
    recordLoop buf maxLen fuel off done (knownTotal body done) saw =
      parseSniFromClientHelloBody body := by
  induction fragments generalizing fuel off done saw with
  | nil => exact absurd rfl hne
  | cons f fragments ih =>
    rw [List.length_cons] at hfuel
    obtain ⟨fuel, rfl⟩ : ∃ n, fuel = n + 1 := ⟨fuel - 1, by omega⟩
    rw [List.flatMap_cons, List.append_assoc] at h
    rw [List.flatMap_cons, ← List.append_assoc] at hsplit
    rw [recordLoop_fragment hbody hmax h hsplit]
    cases fragments with
    | nil => rfl
    | cons f' fragments =>
      have hrest : (f' :: fragments).flatMap Fragment.payload ≠ [] := by
        rw [List.flatMap_cons]
        exact List.append_ne_nil_of_left_ne_nil f'.payload_ne_nil _
      rw [if_neg hrest]
      exact ih h.advance hsplit (List.cons_ne_nil _ _) (by omega)

theorem length_le_length_flatMap_bytes (fragments : List Fragment) :
    fragments.length ≤ (fragments.flatMap Fragment.bytes).length := by
  induction fragments with
  | nil => exact le_rfl
  | cons f fragments ih =>
    have hlength := f.length_bytes
    rw [List.flatMap_cons, List.length_append, List.length_cons]
    omega

/-- The beginning of a record. -/
theorem recordLoop_cut_record {s u : Bytes} (h : Remaining buf off s) (hcut : s ++ u = f.bytes)
    (hu : u ≠ []) (hstart : off = 0 → s ≠ []) (hfuel : s.length ≤ fuel) (needed : Option ℕ) :
    recordLoop buf maxLen fuel off done needed (decide (0 < off)) = .error .insufficientPrefix := by
  have hlength := h.length_eq
  have hpos : s = [] → 0 < off := fun hs => Nat.pos_of_ne_zero fun hoff => hstart hoff hs
  have hend (hoff : 0 < off) : endOfRecords (decide (0 < off)) = .error .insufficientPrefix := by
    rw [decide_eq_true hoff]
    rfl
  cases fuel with
  | zero => exact hend (hpos (List.length_eq_zero_iff.mp (by omega)))
  | succ fuel =>
    by_cases hs : s = []
    · rw [hs, List.length_nil] at hlength
      rw [recordLoop, if_pos (by omega)]
      exact hend (hpos hs)
    have hspos := List.length_pos_iff.mpr hs
    rw [recordLoop, if_neg (by omega)]
    by_cases hfive : s.length < 5
    · rw [if_pos (by omega), shortHeader]
      by_cases hoff : off = 0
      · rw [if_pos hoff]
        have hbuf : buf = s := by
          have heq := h.eq
          rwa [hoff, List.drop_zero] at heq
        have htype : buf.getD 0 0 = 0x16 := by
          rw [hbuf, ← List.getD_append s u 0 0 hspos, hcut]
          rfl
        have hversion : ¬(2 ≤ buf.length ∧ buf.getD 1 0 ≠ 0x03) := by
          rintro ⟨htwo, hne⟩
          rw [hbuf] at htwo hne
          rw [← List.getD_append s u 0 1 (by omega), hcut] at hne
          exact hne rfl
        rw [htype, if_neg (by simp), if_neg hversion]
      · rw [if_neg hoff]
        exact hend (by omega)
    · have hheader : f.header <+: s := by
        refine List.prefix_of_prefix_length_le ⟨f.payload, rfl⟩ ⟨u, hcut⟩ ?_
        rw [f.length_header]
        omega
      obtain ⟨t, rfl⟩ := hheader
      have hshort : buf.length < off + f.bytes.length := by
        have hcutLength := congrArg List.length hcut
        have hupos := List.length_pos_iff.mpr hu
        rw [List.length_append] at hcutLength
        omega
      rw [if_neg (by omega), recordRound, Fragment.readRecord_of_header h, if_pos hshort]
      rfl

/-- A part of the records. -/
theorem recordLoop_cut {fragments : List Fragment} {s u : Bytes}
    (hbody : body.length < 256 ^ 3) (hmax : (helloMessage body).length ≤ maxLen)
    (h : Remaining buf off s) (hcut : s ++ u = fragments.flatMap Fragment.bytes) (hu : u ≠ [])
    (hsplit : done ++ fragments.flatMap Fragment.payload = helloMessage body)
    (hstart : off = 0 → s ≠ []) (hfuel : s.length ≤ fuel) :
    recordLoop buf maxLen fuel off done (knownTotal body done) (decide (0 < off)) =
      .error .insufficientPrefix := by
  induction fragments generalizing fuel off done s with
  | nil =>
    rw [List.flatMap_nil, List.append_eq_nil_iff] at hcut
    exact absurd hcut.2 hu
  | cons f fragments ih =>
    rw [List.flatMap_cons] at hcut hsplit
    have hlength := f.length_bytes
    by_cases hfirst : s.length < f.bytes.length
    · -- the cut is within the first record
      have hpre : s <+: f.bytes :=
        List.prefix_of_prefix_length_le ⟨u, hcut⟩ (List.prefix_append _ _) hfirst.le
      obtain ⟨v, hv⟩ := hpre
      have hvne : v ≠ [] := by
        rintro rfl
        rw [List.append_nil] at hv
        rw [hv] at hfirst
        exact lt_irrefl _ hfirst
      exact recordLoop_cut_record h hv hvne hstart hfuel _
    · -- the first record is there, and the message goes on behind it
      have hpre : f.bytes <+: s :=
        List.prefix_of_prefix_length_le (List.prefix_append _ _) ⟨u, hcut⟩ (not_lt.mp hfirst)
      obtain ⟨s', rfl⟩ := hpre
      rw [List.append_assoc, List.append_cancel_left_eq] at hcut
      have hrest : fragments.flatMap Fragment.payload ≠ [] := by
        cases fragments with
        | nil =>
          rw [List.flatMap_nil, List.append_eq_nil_iff] at hcut
          exact absurd hcut.2 hu
        | cons f' fragments =>
          rw [List.flatMap_cons]
          exact List.append_ne_nil_of_left_ne_nil f'.payload_ne_nil _
      rw [List.length_append] at hfuel
      obtain ⟨fuel, rfl⟩ : ∃ n, fuel = n + 1 := ⟨fuel - 1, by omega⟩
      rw [← List.append_assoc] at hsplit
      rw [recordLoop_fragment hbody hmax h hsplit, if_neg hrest]
      have hfuel' : s'.length ≤ fuel := by omega
      have hnext := ih h.advance hcut hsplit (by omega) hfuel'
      rwa [decide_eq_true (by omega)] at hnext

/-- **Records of a ClientHello.** However the message is cut into records, and whatever follows
them, the sniffer answers with the result for the body; and on every beginning that does not have
all of the last record it asks for more. -/
theorem sniffTlsSniFromPrefix_fragments {body : Bytes} {maxLen : ℕ} {fragments : List Fragment}
    (hbody : body.length < 256 ^ 3) (hmax : (helloMessage body).length ≤ maxLen)
    (hsplit : fragments.flatMap Fragment.payload = helloMessage body) (suffix : Bytes) :
    sniffTlsSniFromPrefix (fragments.flatMap Fragment.bytes ++ suffix) maxLen =
      parseSniFromClientHelloBody body ∧
    ∀ start, start <+: fragments.flatMap Fragment.bytes ++ suffix → start ≠ [] →
      start.length < (fragments.flatMap Fragment.bytes).length →
      sniffTlsSniFromPrefix start maxLen = .error .insufficientPrefix := by
  have hne : fragments ≠ [] := by
    rintro rfl
    cases hsplit
  have hcount : fragments.length ≤ (fragments.flatMap Fragment.bytes).length :=
    length_le_length_flatMap_bytes fragments
  have hpos : 0 < fragments.length := List.length_pos_iff.mpr hne
  refine ⟨?_, fun start hstart hstartNe hlt => ?_⟩
  · have hempty : ¬(fragments.flatMap Fragment.bytes ++ suffix).isEmpty = true := by
      rw [List.isEmpty_iff, List.append_eq_nil_iff]
      rintro ⟨hnil, -⟩
      rw [hnil, List.length_nil] at hcount
      omega
    rw [sniffTlsSniFromPrefix, if_neg hempty]
    refine recordLoop_fragments hbody hmax (Remaining.start _) hsplit hne ?_
    rw [List.length_append]
    omega
  · obtain ⟨u, hu⟩ := List.prefix_of_prefix_length_le hstart (List.prefix_append _ _) hlt.le
    have hune : u ≠ [] := by
      rintro rfl
      rw [List.append_nil] at hu
      rw [hu] at hlt
      exact lt_irrefl _ hlt
    rw [sniffTlsSniFromPrefix, if_neg (by simpa using hstartNe)]
    exact recordLoop_cut hbody hmax (Remaining.start start) hu hune hsplit (fun _ => hstartNe)
      le_rfl

/-- The body of a ClientHello for `a.cn`. -/
def acnHello : Bytes :=
  [0x03, 0x03] ++ List.replicate 32 0x00 ++ [0x00] ++ [0x00, 0x02, 0x13, 0x01] ++ [0x01, 0x00] ++
    [0x00, 0x0d] ++ [0x00, 0x00, 0x00, 0x09] ++ [0x00, 0x07] ++
      [0x00, 0x00, 0x04, 0x61, 0x2e, 0x63, 0x6e]

/-- Two records, the first of them with two bytes of the header of the message. -/
def acnFragments : List Fragment :=
  [⟨0x01, (helloMessage acnHello).take 2, by decide, by decide⟩,
    ⟨0x03, (helloMessage acnHello).drop 2, by decide, by decide⟩]

/-- The two records are one message; without the last byte they are a part of it. -/
theorem sniffTlsSniFromPrefix_acnFragments :
    sniffTlsSniFromPrefix (acnFragments.flatMap Fragment.bytes ++ [0x17]) 4096 =
      .ok [0x61, 0x2e, 0x63, 0x6e] ∧
    sniffTlsSniFromPrefix ((acnFragments.flatMap Fragment.bytes ++ [0x17]).take 69) 4096 =
      .error .insufficientPrefix := by
  have hbody : acnHello.length < 256 ^ 3 := by decide +kernel
  have hmax : (helloMessage acnHello).length ≤ 4096 := by decide +kernel
  have hsplit : acnFragments.flatMap Fragment.payload = helloMessage acnHello := by decide +kernel
  obtain ⟨hall, hcut⟩ := sniffTlsSniFromPrefix_fragments hbody hmax hsplit [0x17]
  refine ⟨hall.trans (by decide +kernel), hcut _ (List.take_prefix _ _) ?_ ?_⟩
  · decide +kernel
  · decide +kernel

end XtpRs.Sniff
