import XtpRs.Lib.Except
import XtpRs.Lib.Guarded
import XtpRs.Sniff.Quic.Frames

/-!
# Accesses and sums of the frame parser

The functions that read variable-length integers, write to the reassembly buffer and walk over the
frames of a payload, with every access and every sum of `usize` checked, and with a round for each
byte at most in every loop. On a payload that fits into memory they have the results of the
functions of `XtpRs.Sniff.Quic.Frames`.

The ranges of an ACK frame are announced by a number of up to 62 bits. A range takes at least two
bytes, so the loop ends with the payload long before that number of rounds.

## Main definitions

* `quicReadVarintChecked`, `QuicCryptoReassembly.writeChecked`, `quicParseInitialFramesChecked`.
* `ackRounds`: the rounds that the loop over the ranges of an ACK frame completes.

## Main results

* `two_mul_ackRounds_le`, `agrees_skipAckRangesChecked`: the rounds over the ranges are bounded by
  the bytes that are left.
* `quicParseInitialFramesChecked_eq`: the checked functions have the results of the functions.
-/

namespace XtpRs.Sniff

open Lib Guarded

/-- `isize::MAX`, the largest length of a `Vec<u8>` or a slice. -/
def Target.isizeMax (target : Target) : ℕ := target.usizeEnd / 2 - 1

/-! ### Integers -/

/-- `quic_read_varint`. -/
def quicReadVarintChecked (target : Target) (buf : Bytes) (off : ℕ) :
    Guarded UdpSniffError (ℕ × ℕ) :=
  match buf[off]? with
  | none => throw .insufficientPrefix
  | some first => do
    let stop ← sumBelow target.usizeEnd off (quicVarintLen first)
    if buf.length < stop then throw .insufficientPrefix
    else do
      let start ← sumBelow target.usizeEnd off 1
      let rest ← sliceAt buf start stop
      pure (rest.foldl (fun value b => value * 256 + b.toNat) (first &&& 0x3f).toNat, stop)

variable {target : Target} {buf frames : Bytes} {off : ℕ}

theorem quicVarintLen_pos (first : UInt8) : 0 < quicVarintLen first := by
  unfold quicVarintLen
  split <;> decide

theorem quicVarintLen_le (first : UInt8) : quicVarintLen first ≤ 8 := by
  unfold quicVarintLen
  split <;> decide

theorem Target.isizeMax_add_lt (target : Target) : target.isizeMax + 2 ^ 30 < target.usizeEnd := by
  cases target <;> decide

theorem agrees_quicReadVarintChecked (hbuf : buf.length ≤ target.isizeMax) :
    Agrees (quicReadVarintChecked target buf off) (quicReadVarint buf off) := by
  have husize := target.isizeMax_add_lt
  unfold quicReadVarintChecked quicReadVarint
  cases hfirst : buf[off]? with
  | none => exact .error _
  | some first =>
    have hoff : off < buf.length := (List.getElem?_eq_some_iff.mp hfirst).1
    have hpos := quicVarintLen_pos first
    have hle := quicVarintLen_le first
    refine .sumBelow (by omega) (.ite (fun _ => .error _) fun hstop => .sumBelow (by omega) ?_)
    exact .sliceAt (by omega) (by omega) (.ok _)

/-- Reading takes at least one byte of the buffer. -/
theorem returns_quicReadVarint (buf : Bytes) (off : ℕ) :
    Returns (fun r => off < r.2 ∧ r.2 ≤ buf.length) (quicReadVarint buf off) := by
  unfold quicReadVarint
  cases hfirst : buf[off]? with
  | none => exact .error _
  | some first =>
    have hpos := quicVarintLen_pos first
    exact .ite (fun _ => .error _) fun hstop => .ok ⟨by omega, not_lt.mp hstop⟩

theorem foldl_bytes_lt (l : Bytes) (acc : ℕ) :
    l.foldl (fun value b => value * 256 + b.toNat) acc < (acc + 1) * 256 ^ l.length := by
  induction l generalizing acc with
  | nil => simp
  | cons b l ih =>
    have hb : b.toNat < 256 := b.toNat_lt
    calc
      l.foldl (fun value b => value * 256 + b.toNat) (acc * 256 + b.toNat)
        < (acc * 256 + b.toNat + 1) * 256 ^ l.length := ih _
      _ ≤ (acc + 1) * 256 * 256 ^ l.length := Nat.mul_le_mul_right _ (by omega)
      _ = (acc + 1) * 256 ^ (l.length + 1) := by rw [Nat.pow_succ', Nat.mul_assoc]

/-- At most seven bytes follow the first one. -/
theorem length_slice_varint_le {first : UInt8} (hstop : off + quicVarintLen first ≤ buf.length) :
    (slice buf (off + 1) (off + quicVarintLen first)).length ≤ 7 := by
  have hlen := quicVarintLen_le first
  rw [length_slice hstop]
  omega

/-- The first byte has six bits of the value. -/
theorem toNat_first_le (first : UInt8) : (first &&& 0x3f).toNat ≤ 63 := by
  rw [UInt8.toNat_and]
  exact Nat.and_le_right

/-- The value of a variable-length integer has at most 62 bits. -/
theorem returns_quicReadVarint_lt (buf : Bytes) (off : ℕ) :
    Returns (fun r => r.1 < 2 ^ 62) (quicReadVarint buf off) := by
  unfold quicReadVarint
  cases buf[off]? with
  | none => exact .error _
  | some first =>
    refine .ite (fun _ => .error _) fun hend => .ok ?_
    have hslice := length_slice_varint_le (not_lt.mp hend)
    have hfirst := toNat_first_le first
    calc
      _ < ((first &&& 0x3f).toNat + 1) *
          256 ^ (slice buf (off + 1) (off + quicVarintLen first)).length := foldl_bytes_lt _ _
      _ ≤ 64 * 256 ^ 7 :=
        Nat.mul_le_mul (by omega) (Nat.pow_le_pow_right (by norm_num) hslice)
      _ = 2 ^ 62 := by norm_num

/-! ### The reassembly buffer -/

namespace QuicCryptoReassembly

/-- The loop at the end of `write`. -/
def advanceChecked (target : Target) (present : List Bool) : ℕ → ℕ → Guarded UdpSniffError ℕ
  | 0, _ => stuck
  | rounds + 1, n =>
    if n < present.length then do
      let p ← getAt present n
      if p then do
        let n ← sumBelow target.usizeEnd n 1
        advanceChecked target present rounds n
      else pure n
    else pure n

/-- `QuicCryptoReassembly::write` behind its checks, with the copies in bounds. -/
def storeChecked (target : Target) (c : QuicCryptoReassembly) (offset stop : ℕ) (data : Bytes) :
    Guarded UdpSniffError QuicCryptoReassembly := do
  let grown := if c.buf.length < stop then resize c.buf stop 0 else c.buf
  let marks := if c.buf.length < stop then resize c.present stop false else c.present
  let buf ← copyAt grown offset stop data
  let present ← copyAt marks offset stop (List.replicate (stop - offset) true)
  let contiguousLen ← advanceChecked target present (present.length + 1) c.contiguousLen
  pure { c with buf, present, contiguousLen }

/-- `QuicCryptoReassembly::write`. -/
def writeChecked (target : Target) (c : QuicCryptoReassembly) (offset : ℕ) (data : Bytes) :
    Option (Except UdpSniffError Unit × QuicCryptoReassembly) :=
  match target.checkedAdd offset data.length with
  | .error e => some (.error e, c)
  | .ok stop =>
    if quicCryptoReassemblyCap < stop then some (.error .tooLarge, c)
    else do
      match ← (c.storeChecked target offset stop data).run with
      | .error e => some (.error e, c)
      | .ok c => some (.ok (), c)

/-- `QuicCryptoReassembly::contiguous`. -/
def contiguousChecked (c : QuicCryptoReassembly) : Guarded UdpSniffError Bytes :=
  sliceAt c.buf 0 c.contiguousLen

variable {c : QuicCryptoReassembly} {offset : ℕ} {data : Bytes}

theorem agrees_advanceChecked {present : List Bool} {rounds n : ℕ}
    (hpresent : present.length < target.usizeEnd) (hn : n ≤ present.length)
    (hrounds : present.length < n + rounds) :
    Agrees (advanceChecked target present rounds n)
      (.ok (advanceContiguous (present.drop n) n)) := by
  induction rounds generalizing n with
  | zero => omega
  | succ rounds ih =>
    rw [advanceChecked]
    by_cases hlt : n < present.length
    · rw [if_pos hlt, List.drop_eq_getElem_cons hlt]
      refine .getAt false hlt ?_
      rw [List.getD_eq_getElem _ _ hlt]
      cases present[n] with
      | false => exact .ok _
      | true => exact .sumBelow (by omega) (ih (by omega) (by omega))
    · rw [if_neg hlt, List.drop_eq_nil_of_le (not_lt.mp hlt)]
      exact .ok _

/-- A buffer that is long enough is not grown. -/
theorem ite_resize {α : Type} (l : List α) (n k : ℕ) (a : α) (hn : n = l.length) :
    (if n < k then resize l k a else l) = resize l k a := by
  split_ifs with h
  · rfl
  · have hzero : k - l.length = 0 := by omega
    rw [resize, hzero, List.replicate_zero, List.append_nil]

theorem agrees_storeChecked (hc : Wf c) (hcap : offset + data.length ≤ quicCryptoReassemblyCap) :
    Agrees (c.storeChecked target offset (offset + data.length) data)
      (.ok (c.store offset data)) := by
  have husize := target.le_usizeEnd
  have hlt : quicCryptoReassemblyCap < 2 ^ 32 := by decide
  have hbuf := length_buf_store c offset data
  have hpresent := length_present_store c offset data
  have hle := hc.le_cap
  have hmarks : (List.replicate data.length true).length = data.length := List.length_replicate
  unfold storeChecked
  rw [ite_resize _ _ _ _ rfl, ite_resize _ _ _ _ hc.length_eq.symm, Nat.add_sub_cancel_left]
  refine .copyAt ?_ rfl (.copyAt ?_ (by rw [hmarks]) ?_)
  · rw [length_resize]
    omega
  · rw [length_resize]
    omega
  have hcontiguous : c.contiguousLen ≤ (c.store offset data).present.length :=
    hc.contiguous_le.trans (by omega)
  have hadvance : Agrees
      (advanceChecked target (c.store offset data).present
        ((c.store offset data).present.length + 1) c.contiguousLen)
      (.ok (c.store offset data).contiguousLen) := by
    refine agrees_advanceChecked ?_ hcontiguous (by omega)
    rw [hpresent, hc.length_eq]
    omega
  exact .bind hadvance fun n _ => .ok _

/-- Writing is in bounds in every state that keeps the invariant. -/
theorem writeChecked_eq (hc : Wf c) :
    c.writeChecked target offset data = some (c.write target offset data) := by
  unfold writeChecked write
  cases hstop : target.checkedAdd offset data.length with
  | error e => rfl
  | ok stop =>
    have hsum : stop = offset + data.length := by
      unfold Target.checkedAdd at hstop
      split_ifs at hstop
      exact (Except.ok.inj hstop).symm
    subst hsum
    dsimp only
    split_ifs with hcap
    · rfl
    · exact (agrees_storeChecked hc (not_lt.mp hcap)).run_bind _

theorem agrees_contiguousChecked (hc : Wf c) : Agrees c.contiguousChecked (.ok c.contiguous) := by
  have hle : c.contiguousLen ≤ c.buf.length := hc.contiguous_le.trans hc.length_eq.le
  rw [contiguousChecked, Guarded.sliceAt, if_pos ⟨Nat.zero_le _, hle⟩]
  exact .ok _

end QuicCryptoReassembly

/-! ### Frames -/

/-- The loop over the ranges of an ACK frame; no result when it begins more than `rounds` rounds. -/
def skipAckRangesChecked (target : Target) (frames : Bytes) :
    ℕ → ℕ → ℕ → Guarded UdpSniffError ℕ
  | _, 0, off => pure off
  | 0, _ + 1, _ => stuck
  | rounds + 1, count + 1, off => do
    let (_, off) ← quicReadVarintChecked target frames off
    let (_, off) ← quicReadVarintChecked target frames off
    skipAckRangesChecked target frames rounds count off

/-- `quic_skip_ack_frame`; the loop may begin a round for each byte left. -/
def quicSkipAckFrameChecked (target : Target) (frameType : ℕ) (frames : Bytes) (start : ℕ) :
    Guarded UdpSniffError ℕ := do
  let (_, off) ← quicReadVarintChecked target frames start
  let (_, off) ← quicReadVarintChecked target frames off
  let (ackRangeCount, off) ← quicReadVarintChecked target frames off
  let (_, off) ← quicReadVarintChecked target frames off
  let off ← skipAckRangesChecked target frames (frames.length - start) ackRangeCount off
  if frameType = 0x03 then do
    let (_, off) ← quicReadVarintChecked target frames off
    let (_, off) ← quicReadVarintChecked target frames off
    let (_, off) ← quicReadVarintChecked target frames off
    pure off
  else pure off

/-- `quic_skip_connection_close_frame`. -/
def quicSkipConnectionCloseFrameChecked (target : Target) (frames : Bytes) (off : ℕ) :
    Guarded UdpSniffError ℕ := do
  let (_, off) ← quicReadVarintChecked target frames off
  let (_, off) ← quicReadVarintChecked target frames off
  let (reasonLen, off) ← quicReadVarintChecked target frames off
  let reasonLen ← lift (target.usizeTryFrom reasonLen)
  let stop ← lift (target.checkedAdd off reasonLen)
  if frames.length < stop then throw .insufficientPrefix else pure stop

/-- The fields of a CRYPTO frame. -/
def quicReadCryptoFrameChecked (target : Target) (frames : Bytes) (off : ℕ) :
    Guarded UdpSniffError (ℕ × Bytes × ℕ) := do
  let (cryptoOffset, off) ← quicReadVarintChecked target frames off
  let cryptoOffset ← lift (target.usizeTryFrom cryptoOffset)
  let (cryptoLen, off) ← quicReadVarintChecked target frames off
  let cryptoLen ← lift (target.usizeTryFrom cryptoLen)
  let cryptoEnd ← lift (target.checkedAdd off cryptoLen)
  if frames.length < cryptoEnd then throw .insufficientPrefix
  else do
    let data ← sliceAt frames off cryptoEnd
    pure (cryptoOffset, data, cryptoEnd)

/-- The loop of `quic_parse_initial_frames`. -/
def framesLoopChecked (target : Target) (frames : Bytes) :
    ℕ → ℕ → QuicCryptoReassembly → Option (Except UdpSniffError Unit × QuicCryptoReassembly)
  | 0, _, _ => none
  | rounds + 1, off, crypto =>
    if frames.length ≤ off then some (.ok (), crypto)
    else do
      match ← (quicReadVarintChecked target frames off).run with
      | .error e => some (.error e, crypto)
      | .ok (frameType, off) =>
        if frameType = 0x00 ∨ frameType = 0x01 then
          framesLoopChecked target frames rounds off crypto
        else if frameType = 0x02 ∨ frameType = 0x03 then do
          match ← (quicSkipAckFrameChecked target frameType frames off).run with
          | .error e => some (.error e, crypto)
          | .ok off => framesLoopChecked target frames rounds off crypto
        else if frameType = 0x06 then do
          match ← (quicReadCryptoFrameChecked target frames off).run with
          | .error e => some (.error e, crypto)
          | .ok (cryptoOffset, data, off) =>
            match ← crypto.writeChecked target cryptoOffset data with
            | (.error e, crypto) => some (.error e, crypto)
            | (.ok (), crypto) => framesLoopChecked target frames rounds off crypto
        else if frameType = 0x1c then do
          match ← (quicSkipConnectionCloseFrameChecked target frames off).run with
          | .error e => some (.error e, crypto)
          | .ok off => framesLoopChecked target frames rounds off crypto
        else some (.error .protocolNotMatched, crypto)

/-- `quic_parse_initial_frames`. -/
def quicParseInitialFramesChecked (target : Target) (frames : Bytes)
    (crypto : QuicCryptoReassembly) :
    Option (Except UdpSniffError Unit × QuicCryptoReassembly) :=
  framesLoopChecked target frames (frames.length + 1) 0 crypto

/-- The rounds that the loop over the ranges of an ACK frame completes. -/
def ackRounds (frames : Bytes) : ℕ → ℕ → ℕ
  | 0, _ => 0
  | count + 1, off =>
    match quicReadVarint frames off >>= fun gap => quicReadVarint frames gap.2 with
    | .error _ => 0
    | .ok length => ackRounds frames count length.2 + 1

/-- **Ranges of an ACK frame.** Every round that is completed takes two bytes, however many ranges
are announced. -/
theorem two_mul_ackRounds_le {count : ℕ} (hoff : off ≤ frames.length) :
    2 * ackRounds frames count off ≤ frames.length - off := by
  induction count generalizing off with
  | zero => exact Nat.zero_le _
  | succ count ih =>
    rw [ackRounds]
    cases hread : quicReadVarint frames off >>= fun gap => quicReadVarint frames gap.2 with
    | error e => exact Nat.zero_le _
    | ok length =>
      obtain ⟨gap, hgap, hlength⟩ := bind_eq_ok_iff.mp hread
      have hone := returns_quicReadVarint _ _ _ hgap
      have htwo := returns_quicReadVarint _ _ _ hlength
      have hrest := ih htwo.2
      dsimp only
      omega

/-- The loop returns when all rounds are completed. -/
theorem ackRounds_of_skipAckRanges {count stop : ℕ}
    (h : skipAckRanges frames count off = .ok stop) : ackRounds frames count off = count := by
  induction count generalizing off with
  | zero => rfl
  | succ count ih =>
    obtain ⟨gap, hgap, h⟩ := bind_eq_ok_iff.mp h
    obtain ⟨length, hlength, h⟩ := bind_eq_ok_iff.mp h
    have hread : (quicReadVarint frames off >>= fun gap => quicReadVarint frames gap.2) =
        .ok length := bind_eq_ok_iff.mpr ⟨gap, hgap, hlength⟩
    rw [ackRounds, hread]
    exact congrArg (· + 1) (ih h)

/-- The last round begun may fail. -/
theorem agrees_skipAckRangesChecked {rounds count : ℕ} (hframes : frames.length ≤ target.isizeMax)
    (hoff : off ≤ frames.length) (h : frames.length < off + 2 * rounds) :
    Agrees (skipAckRangesChecked target frames rounds count off)
      (skipAckRanges frames count off) := by
  induction count generalizing rounds off with
  | zero =>
    rw [skipAckRangesChecked]
    exact .ok _
  | succ count ih =>
    cases rounds with
    | zero => omega
    | succ rounds =>
      refine .bind (agrees_quicReadVarintChecked hframes) fun gap hgap => ?_
      refine .bind (agrees_quicReadVarintChecked hframes) fun length hlength => ?_
      have hone := returns_quicReadVarint _ _ _ hgap
      have htwo := returns_quicReadVarint _ _ _ hlength
      exact ih htwo.2 (by omega)

theorem agrees_quicSkipAckFrameChecked {frameType start : ℕ}
    (hframes : frames.length ≤ target.isizeMax) :
    Agrees (quicSkipAckFrameChecked target frameType frames start)
      (quicSkipAckFrame frameType frames start) := by
  refine .bind (agrees_quicReadVarintChecked hframes) fun largest hlargest => ?_
  refine .bind (agrees_quicReadVarintChecked hframes) fun delay hdelay => ?_
  refine .bind (agrees_quicReadVarintChecked hframes) fun count hcount => ?_
  refine .bind (agrees_quicReadVarintChecked hframes) fun first hfirst => ?_
  have h1 := returns_quicReadVarint _ _ _ hlargest
  have h2 := returns_quicReadVarint _ _ _ hdelay
  have h3 := returns_quicReadVarint _ _ _ hcount
  have h4 := returns_quicReadVarint _ _ _ hfirst
  refine .bind (agrees_skipAckRangesChecked hframes h4.2 (by omega)) fun off _ => ?_
  refine .ite (fun _ => ?_) fun _ => .ok _
  refine .bind (agrees_quicReadVarintChecked hframes) fun ect0 _ => ?_
  refine .bind (agrees_quicReadVarintChecked hframes) fun ect1 _ => ?_
  exact .bind (agrees_quicReadVarintChecked hframes) fun ce _ => .ok _

theorem agrees_quicSkipConnectionCloseFrameChecked (hframes : frames.length ≤ target.isizeMax) :
    Agrees (quicSkipConnectionCloseFrameChecked target frames off)
      (quicSkipConnectionCloseFrame target frames off) := by
  refine .bind (agrees_quicReadVarintChecked hframes) fun errorCode _ => ?_
  refine .bind (agrees_quicReadVarintChecked hframes) fun frameType _ => ?_
  refine .bind (agrees_quicReadVarintChecked hframes) fun reasonLen _ => ?_
  refine .bind (.lift _) fun reasonLen' _ => .bind (.lift _) fun stop _ => ?_
  exact .ite (fun _ => .error _) fun _ => .ok _

theorem checkedAdd_eq {a b stop : ℕ} (h : target.checkedAdd a b = .ok stop) :
    stop = a + b := by
  unfold Target.checkedAdd at h
  split_ifs at h
  exact (Except.ok.inj h).symm

theorem agrees_quicReadCryptoFrameChecked (hframes : frames.length ≤ target.isizeMax) :
    Agrees (quicReadCryptoFrameChecked target frames off)
      (quicReadCryptoFrame target frames off) := by
  refine .bind (agrees_quicReadVarintChecked hframes) fun cryptoOffset _ => ?_
  refine .bind (.lift _) fun cryptoOffset' _ => ?_
  refine .bind (agrees_quicReadVarintChecked hframes) fun cryptoLen _ => ?_
  refine .bind (.lift _) fun cryptoLen' _ => .bind (.lift _) fun stop hstop => ?_
  have hsum := checkedAdd_eq hstop
  refine .ite (fun _ => .error _) fun hend => .sliceAt (by omega) (by omega) (.ok _)

/-! ### The offset moves forward -/

theorem returns_skipAckRanges {count : ℕ} (hoff : off ≤ frames.length) :
    Returns (fun stop => off ≤ stop ∧ stop ≤ frames.length) (skipAckRanges frames count off) := by
  induction count generalizing off with
  | zero => exact .ok ⟨le_rfl, hoff⟩
  | succ count ih =>
    refine .bind fun gap hgap => .bind fun length hlength => ?_
    have hone := returns_quicReadVarint _ _ _ hgap
    have htwo := returns_quicReadVarint _ _ _ hlength
    intro stop hstop
    have hrest := ih htwo.2 stop hstop
    omega

theorem returns_quicSkipAckFrame (frameType : ℕ) (frames : Bytes) (off : ℕ) :
    Returns (fun stop => off < stop) (quicSkipAckFrame frameType frames off) := by
  refine .bind fun largest hlargest => .bind fun delay hdelay => ?_
  refine .bind fun count hcount => .bind fun first hfirst => .bind fun ranges hranges => ?_
  have h1 := returns_quicReadVarint _ _ _ hlargest
  have h2 := returns_quicReadVarint _ _ _ hdelay
  have h3 := returns_quicReadVarint _ _ _ hcount
  have h4 := returns_quicReadVarint _ _ _ hfirst
  have hend := returns_skipAckRanges h4.2 _ hranges
  refine .ite (fun _ => ?_) fun _ => .ok (by omega)
  refine .bind fun ect0 hect0 => .bind fun ect1 hect1 => .bind fun ce hce => .ok ?_
  have h5 := returns_quicReadVarint _ _ _ hect0
  have h6 := returns_quicReadVarint _ _ _ hect1
  have h7 := returns_quicReadVarint _ _ _ hce
  omega

theorem returns_quicSkipConnectionCloseFrame (target : Target) (frames : Bytes) (off : ℕ) :
    Returns (fun stop => off < stop) (quicSkipConnectionCloseFrame target frames off) := by
  refine .bind fun errorCode herrorCode => .bind fun frameType hframeType => ?_
  refine .bind fun reasonLen hreasonLen => .bind fun reasonLen' _ => .bind fun stop hstop => ?_
  have h1 := returns_quicReadVarint _ _ _ herrorCode
  have h2 := returns_quicReadVarint _ _ _ hframeType
  have h3 := returns_quicReadVarint _ _ _ hreasonLen
  have hsum := checkedAdd_eq hstop
  exact .ite (fun _ => .error _) fun _ => .ok (by omega)

theorem returns_quicReadCryptoFrame (target : Target) (frames : Bytes) (off : ℕ) :
    Returns (fun r => off < r.2.2) (quicReadCryptoFrame target frames off) := by
  refine .bind fun cryptoOffset hcryptoOffset => .bind fun cryptoOffset' _ => ?_
  refine .bind fun cryptoLen hcryptoLen => .bind fun cryptoLen' _ => .bind fun stop hstop => ?_
  have h1 := returns_quicReadVarint _ _ _ hcryptoOffset
  have h2 := returns_quicReadVarint _ _ _ hcryptoLen
  have hsum := checkedAdd_eq hstop
  refine .ite (fun _ => .error _) fun _ => .ok ?_
  dsimp only
  omega

/-! ### The loop over the frames -/

/-- The loop keeps the invariant of the reassembly buffer. -/
theorem wf_framesLoop {fuel : ℕ} {crypto : QuicCryptoReassembly} (h : crypto.Wf) :
    (framesLoop target frames fuel off crypto).2.Wf := by
  induction fuel generalizing off crypto with
  | zero => exact h
  | succ fuel ih =>
    rw [framesLoop]
    split_ifs with hend
    · exact h
    cases quicReadVarint frames off with
    | error e => exact h
    | ok r =>
      obtain ⟨frameType, off⟩ := r
      dsimp only
      split_ifs with hskip hack hcrypto hclose
      · exact ih h
      · cases quicSkipAckFrame frameType frames off with
        | error e => exact h
        | ok off => exact ih h
      · cases quicReadCryptoFrame target frames off with
        | error e => exact h
        | ok r =>
          have hwrite : (crypto.write target r.1 r.2.1).2.Wf := h.write
          dsimp only
          generalize crypto.write target r.1 r.2.1 = written at hwrite ⊢
          rcases written with ⟨e | u, crypto'⟩
          · exact hwrite
          · exact ih hwrite
      · cases quicSkipConnectionCloseFrame target frames off with
        | error e => exact h
        | ok off => exact ih h
      · exact h

/-- **The loop.** A round for each byte is enough, and every round is in bounds. -/
theorem framesLoopChecked_eq {rounds : ℕ} {crypto : QuicCryptoReassembly}
    (hframes : frames.length ≤ target.isizeMax) (hcrypto : crypto.Wf)
    (h : frames.length ≤ off + rounds) :
    framesLoopChecked target frames (rounds + 1) off crypto =
      some (framesLoop target frames rounds off crypto) := by
  induction rounds generalizing off crypto with
  | zero =>
    rw [framesLoopChecked, if_pos (by omega)]
    rfl
  | succ rounds ih =>
    rw [framesLoopChecked, framesLoop]
    split_ifs with hend
    · rfl
    refine ((agrees_quicReadVarintChecked hframes).run_bind _).trans ?_
    cases hread : quicReadVarint frames off with
    | error e => rfl
    | ok r =>
      obtain ⟨frameType, stop⟩ := r
      have hstop := returns_quicReadVarint _ _ _ hread
      dsimp only at hstop ⊢
      split_ifs with hskip hack hframe hclose
      · exact ih hcrypto (by omega)
      · refine ((agrees_quicSkipAckFrameChecked hframes).run_bind _).trans ?_
        cases hack : quicSkipAckFrame frameType frames stop with
        | error e => rfl
        | ok next =>
          have hnext := returns_quicSkipAckFrame _ _ _ _ hack
          exact ih hcrypto (by omega)
      · refine ((agrees_quicReadCryptoFrameChecked hframes).run_bind _).trans ?_
        cases hfields : quicReadCryptoFrame target frames stop with
        | error e => rfl
        | ok fields =>
          obtain ⟨cryptoOffset, data, next⟩ := fields
          have hnext := returns_quicReadCryptoFrame _ _ _ _ hfields
          have hwf : (crypto.write target cryptoOffset data).2.Wf := hcrypto.write
          dsimp only at hnext ⊢
          rw [QuicCryptoReassembly.writeChecked_eq hcrypto, Option.bind_eq_bind, Option.bind_some]
          generalize crypto.write target cryptoOffset data = written at hwf ⊢
          rcases written with ⟨e | u, crypto'⟩
          · rfl
          · exact ih hwf (by omega)
      · refine ((agrees_quicSkipConnectionCloseFrameChecked hframes).run_bind _).trans ?_
        cases hskipped : quicSkipConnectionCloseFrame target frames stop with
        | error e => rfl
        | ok next =>
          have hnext := returns_quicSkipConnectionCloseFrame _ _ _ _ hskipped
          exact ih hcrypto (by omega)
      · rfl

theorem quicParseInitialFramesChecked_eq {crypto : QuicCryptoReassembly}
    (hframes : frames.length ≤ target.isizeMax) (hcrypto : crypto.Wf) :
    quicParseInitialFramesChecked target frames crypto =
      some (quicParseInitialFrames target frames crypto) :=
  framesLoopChecked_eq hframes hcrypto (Nat.le_add_left _ _)

end XtpRs.Sniff
