import XtpRs.Lib.Except
import XtpRs.Sniff.Tcp
import XtpRs.Sniff.Tls

/-!
# TLS records

`sniff_tls_sni_from_prefix` of `src/sniff/tls.rs` takes the handshake message out of the first TLS
records of a client and looks for the server name in it. It is given a prefix of what the client
sends and asks for more where the prefix is too short to tell.

Each round of the loop passes a record, so the length of the prefix bounds the number of rounds.

## Main definitions

* `sniffTlsSniFromPrefix`, `TlsSniffer.toSniffer`.

## Main results

* `settled_sniffTlsSniFromPrefix`: what is decided on a prefix stays decided.
-/

namespace XtpRs.Sniff

open Lib

/-- The largest payload of a record. -/
def maxTlsRecordPayload : ℕ := 18 * 1024

/-- The header of the record at `off`, of which all five bytes are there: the end of the record. -/
def readRecord (buf : Bytes) (off : ℕ) : Except TlsSniffError ℕ :=
  if buf.getD off 0 ≠ 22 then .error .protocolNotMatched
  else if buf.getD (off + 1) 0 ≠ 0x03 then .error .protocolNotMatched
  else do
    let recordLen ← beU16 (slice buf (off + 3) (off + 5))
    if recordLen = 0 ∨ maxTlsRecordPayload < recordLen then .error .protocolNotMatched
    else
      let recordEnd := off + 5 + recordLen
      if buf.length < recordEnd then .error .insufficientPrefix else .ok recordEnd

/-- `needed_total` after a record: the length of the message, once its header is there. -/
def updateNeededTotal (maxClientHelloSize : ℕ) (handshake : Bytes) (neededTotal : Option ℕ) :
    Except TlsSniffError (Option ℕ) :=
  if neededTotal.isNone && decide (4 ≤ handshake.length) then
    if handshake.getD 0 0 ≠ 0x01 then .error .protocolNotMatched
    else do
      let hsLen ← beU24 (slice handshake 1 4)
      let total := 4 + hsLen
      if maxClientHelloSize < total then .error .tooLargeClientHello else .ok (some total)
  else .ok neededTotal

/-- The result where the records end. -/
def endOfRecords (sawHandshakeRecord : Bool) : Except TlsSniffError Str :=
  if sawHandshakeRecord then .error .insufficientPrefix else .error .protocolNotMatched

/-- Fewer than five bytes are left at `off`. -/
def shortHeader (buf : Bytes) (off : ℕ) (sawHandshakeRecord : Bool) : Except TlsSniffError Str :=
  if off = 0 then
    if buf.getD 0 0 ≠ 0x16 then .error .protocolNotMatched
    else if 2 ≤ buf.length ∧ buf.getD 1 0 ≠ 0x03 then .error .protocolNotMatched
    else .error .insufficientPrefix
  else endOfRecords sawHandshakeRecord

/-- A round of the loop, at a record whose header is there; `next` is the rest of the loop. -/
def recordRound (buf : Bytes) (maxClientHelloSize : ℕ)
    (next : ℕ → Bytes → Option ℕ → Except TlsSniffError Str) (off : ℕ) (handshake : Bytes)
    (neededTotal : Option ℕ) : Except TlsSniffError Str := do
  let recordEnd ← readRecord buf off
  let handshake := handshake ++ slice buf (off + 5) recordEnd
  let neededTotal ← updateNeededTotal maxClientHelloSize handshake neededTotal
  match neededTotal with
  | some total =>
    if total ≤ handshake.length then parseSniFromClientHelloBody (slice handshake 4 total)
    else next recordEnd handshake neededTotal
  | none => next recordEnd handshake neededTotal

/-- The loop of `sniff_tls_sni_from_prefix` over the records. -/
def recordLoop (buf : Bytes) (maxClientHelloSize : ℕ) :
    ℕ → ℕ → Bytes → Option ℕ → Bool → Except TlsSniffError Str
  | 0, _, _, _, sawHandshakeRecord => endOfRecords sawHandshakeRecord
  | fuel + 1, off, handshake, neededTotal, sawHandshakeRecord =>
    if buf.length ≤ off then endOfRecords sawHandshakeRecord
    else if buf.length - off < 5 then shortHeader buf off sawHandshakeRecord
    else
      recordRound buf maxClientHelloSize
        (fun recordEnd handshake neededTotal =>
          recordLoop buf maxClientHelloSize fuel recordEnd handshake neededTotal true)
        off handshake neededTotal

/-- `sniff_tls_sni_from_prefix`. -/
def sniffTlsSniFromPrefix (buf : Bytes) (maxClientHelloSize : ℕ) : Except TlsSniffError Str :=
  if buf.isEmpty then .error .peekEmpty
  else recordLoop buf maxClientHelloSize buf.length 0 [] none false

/-- `TlsSniffer`. -/
structure TlsSniffer where
  peekLen : ℕ
  maxLen : ℕ
  maxRetries : ℕ

/-- `TlsSniffer::classify`. -/
def TlsSniffer.classify (buf : Bytes) (maxLen : ℕ) : SniffAttempt :=
  match sniffTlsSniFromPrefix buf maxLen with
  | .ok host => .matched host
  | .error .insufficientPrefix => .needMore
  | .error .peekEmpty => .abort .peekEmpty
  | .error .protocolNotMatched => .abort .protocolNotMatched
  | .error .tlsNoSni => .abort .noTarget
  | .error .parseError => .abort .parseError
  | .error .invalidHostname => .abort .invalidHostname
  | .error .tooLargeClientHello => .abort .tooLarge

/-- The implementation of `Sniffer`. -/
def TlsSniffer.toSniffer (s : TlsSniffer) : Sniffer where
  initialPeekLen := s.peekLen
  maxPeekLen := s.maxLen
  maxRetries := s.maxRetries
  classify := classify

/-! ### Longer prefixes -/

/-- What is decided on a prefix stays decided. -/
abbrev TlsSettled {α : Type} (r r' : Except TlsSniffError α) : Prop :=
  Settled TlsSniffError.insufficientPrefix r r'

variable {buf rest : Bytes} {off maxLen : ℕ}

theorem settled_readRecord (h : off + 5 ≤ buf.length) :
    TlsSettled (readRecord buf off) (readRecord (buf ++ rest) off) := by
  have hfirst : (buf ++ rest).getD off 0 = buf.getD off 0 :=
    List.getD_append buf rest 0 off (by omega)
  have hsecond : (buf ++ rest).getD (off + 1) 0 = buf.getD (off + 1) 0 :=
    List.getD_append buf rest 0 (off + 1) (by omega)
  rw [readRecord, readRecord, hfirst, hsecond, slice_append_left rest h]
  refine .ite Iff.rfl (fun _ => .refl _) fun _ => .ite Iff.rfl (fun _ => .refl _) fun _ => ?_
  refine .bind (.refl _) fun recordLen _ => .ite Iff.rfl (fun _ => .refl _) fun _ => ?_
  dsimp only
  by_cases hend : buf.length < off + 5 + recordLen
  · rw [if_pos hend]
    exact .of_more
  · rw [if_neg hend, if_neg (by rw [List.length_append]; omega)]
    exact .refl _

theorem returns_readRecord (buf : Bytes) (off : ℕ) :
    Returns (fun recordEnd => off < recordEnd ∧ recordEnd ≤ buf.length) (readRecord buf off) := by
  refine .ite (fun _ => .error _) fun _ => .ite (fun _ => .error _) fun _ => ?_
  refine .bind fun recordLen _ => .ite (fun _ => .error _) fun _ => ?_
  exact .ite (fun _ => .error _) fun hle => .ok ⟨by omega, by omega⟩

/-- A start that is too short for a header and not that of a handshake record is not the start of
one. -/
theorem settled_shortHeader {fuel : ℕ} (hne : buf ≠ []) (hshort : buf.length < 5) :
    TlsSettled (shortHeader buf 0 false)
      (recordLoop (buf ++ rest) maxLen (fuel + 1) 0 [] none false) := by
  have hpos : 0 < buf.length := List.length_pos_iff.mpr hne
  have hfirst : (buf ++ rest).getD 0 0 = buf.getD 0 0 := List.getD_append buf rest 0 0 hpos
  have hlong : ¬(buf ++ rest).length ≤ 0 := by
    rw [List.length_append]
    omega
  rw [shortHeader, if_pos rfl, recordLoop, if_neg hlong]
  by_cases hrest : (buf ++ rest).length - 0 < 5
  · rw [if_pos hrest, shortHeader, if_pos rfl, hfirst]
    split_ifs with htype hversion hmore hmore
    · exact .refl _
    · exact .refl _
    · have hsecond : (buf ++ rest).getD 1 0 = buf.getD 1 0 :=
        List.getD_append buf rest 0 1 (by omega)
      rw [hsecond, List.length_append] at hmore
      exact absurd ⟨by omega, hversion.2⟩ hmore
    · exact .of_more
    · exact .of_more
  · rw [if_neg hrest, recordRound, readRecord, hfirst]
    split_ifs with htype hversion hmore hmore
    · exact .refl _
    · exact .refl _
    · have hsecond : (buf ++ rest).getD 1 0 = buf.getD 1 0 :=
        List.getD_append buf rest 0 1 (by omega)
      rw [Nat.zero_add, hsecond] at hmore
      exact absurd hversion.2 hmore
    · exact .of_more
    · exact .of_more

theorem settled_recordRound {next next' : ℕ → Bytes → Option ℕ → Except TlsSniffError Str}
    (h : off + 5 ≤ buf.length) (hnext : ∀ recordEnd, off < recordEnd → ∀ handshake neededTotal,
      TlsSettled (next recordEnd handshake neededTotal) (next' recordEnd handshake neededTotal))
    (handshake : Bytes) (neededTotal : Option ℕ) :
    TlsSettled (recordRound buf maxLen next off handshake neededTotal)
      (recordRound (buf ++ rest) maxLen next' off handshake neededTotal) := by
  refine .bind (settled_readRecord h) fun recordEnd hrecord => ?_
  obtain ⟨hlt, hle⟩ := returns_readRecord buf off recordEnd hrecord
  rw [slice_append_left rest hle]
  refine .bind (.refl _) fun neededTotal' _ => ?_
  cases neededTotal' with
  | none => exact hnext recordEnd hlt _ _
  | some total => exact .ite Iff.rfl (fun _ => .refl _) fun _ => hnext recordEnd hlt _ _

/-- The rounds behind the first record. -/
theorem settled_recordLoop {fuel fuel' : ℕ} (hfuel : fuel ≤ fuel') (hoff : 0 < off)
    (handshake : Bytes) (neededTotal : Option ℕ) :
    TlsSettled (recordLoop buf maxLen fuel off handshake neededTotal true)
      (recordLoop (buf ++ rest) maxLen fuel' off handshake neededTotal true) := by
  induction fuel generalizing fuel' off handshake neededTotal with
  | zero => exact .of_more
  | succ fuel ih =>
    obtain ⟨fuel', rfl⟩ : ∃ n, fuel' = n + 1 := ⟨fuel' - 1, by omega⟩
    rw [recordLoop, recordLoop]
    by_cases hend : buf.length ≤ off
    · rw [if_pos hend]
      exact .of_more
    · by_cases hshort : buf.length - off < 5
      · rw [if_neg hend, if_pos hshort, shortHeader, if_neg (by omega)]
        exact .of_more
      · rw [if_neg hend, if_neg hshort, if_neg (by rw [List.length_append]; omega),
          if_neg (by rw [List.length_append]; omega)]
        refine settled_recordRound (by omega) (fun recordEnd hlt handshake neededTotal => ?_) _ _
        exact ih (by omega) (by omega) handshake neededTotal

/-- **Longer prefixes.** What is decided on a non-empty prefix stays decided when more bytes
follow. -/
theorem settled_sniffTlsSniFromPrefix (hne : buf ≠ []) (rest : Bytes) (maxLen : ℕ) :
    TlsSettled (sniffTlsSniFromPrefix buf maxLen) (sniffTlsSniFromPrefix (buf ++ rest) maxLen) := by
  have hpos : 0 < buf.length := List.length_pos_iff.mpr hne
  have hempty : ¬(buf ++ rest).isEmpty = true := by simp [hne]
  obtain ⟨n, hn⟩ : ∃ n, buf.length = n + 1 := ⟨buf.length - 1, by omega⟩
  obtain ⟨n', hn'⟩ : ∃ n', (buf ++ rest).length = n' + 1 :=
    ⟨(buf ++ rest).length - 1, by rw [List.length_append]; omega⟩
  rw [sniffTlsSniFromPrefix, sniffTlsSniFromPrefix, if_neg (by simpa using hne), if_neg hempty, hn,
    hn', recordLoop, if_neg (by omega)]
  by_cases hshort : buf.length - 0 < 5
  · rw [if_pos hshort]
    exact settled_shortHeader hne hshort
  · rw [if_neg hshort, recordLoop, if_neg (by omega), if_neg (by rw [List.length_append]; omega)]
    refine settled_recordRound (by omega) (fun recordEnd hlt handshake neededTotal => ?_) _ _
    refine settled_recordLoop ?_ hlt handshake neededTotal
    rw [List.length_append] at hn'
    omega

end XtpRs.Sniff
