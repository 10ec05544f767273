import XtpRs.Sniff.Quic.FrameBounds

/-!
# Reading integers in place

`quic_read_varint` of `src/sniff/quic.rs` changes the offset it is given, and composes the value by
shifts of 64-bit words. `quicReadVarintMut` is the function with these operations, and with every
access and every sum of `usize` checked. It has the results of `quicReadVarint`, and changes the
offset only when it succeeds.

## Main results

* `leaves_of_quicReadVarint_eq_ok`, `leaves_of_quicReadVarint_eq_error`: its result and the offset
  it leaves.
* `quicReadVarintMut_exact`: it inverts every encoding, wherever it stands.
-/

namespace XtpRs.Sniff

open Lib Guarded InPlace

/-- `(value << 8) | (*b as u64)`. -/
def shiftIn (value : UInt64) (b : UInt8) : UInt64 := value <<< 8 ||| b.toUInt64

/-- `quic_read_varint`, with the offset as a state. -/
def quicReadVarintMut (target : Target) (buf : Bytes) : InPlace ℕ UdpSniffError UInt64 := do
  let off ← get
  match buf[off]? with
  | none => throw .insufficientPrefix
  | some first => do
    let len := quicVarintLen first
    let stop ← call (sumBelow target.usizeEnd off len)
    if buf.length < stop then throw .insufficientPrefix
    else do
      let start ← call (sumBelow target.usizeEnd off 1)
      let stop ← call (sumBelow target.usizeEnd off len)
      let rest ← call (sliceAt buf start stop)
      let value := rest.foldl shiftIn (first &&& 0x3f).toUInt64
      let next ← call (sumBelow target.usizeEnd off len)
      set next
      pure value

/-! ### Shifts -/

/-- A byte is appended to a word that has room for it. -/
theorem toNat_shiftIn {value : UInt64} (b : UInt8) (h : value.toNat < 2 ^ 56) :
    (shiftIn value b).toNat = value.toNat * 256 + b.toNat := by
  have hb : b.toNat < 2 ^ 8 := b.toNat_lt
  have height : (8 : UInt64).toNat % 64 = 8 := rfl
  rw [shiftIn, UInt64.toNat_or, UInt64.toNat_shiftLeft, height, UInt8.toNat_toUInt64,
    Nat.shiftLeft_eq, Nat.mod_eq_of_lt (by omega), Nat.mul_comm, ← Nat.two_pow_add_eq_or_of_lt hb,
    Nat.mul_comm]

/-- No bit is lost while the bytes fit into the word. -/
theorem toNat_foldl_shiftIn (l : Bytes) {value : UInt64}
    (h : (value.toNat + 1) * 256 ^ l.length ≤ 2 ^ 64) :
    (l.foldl shiftIn value).toNat =
      l.foldl (fun value b => value * 256 + b.toNat) value.toNat := by
  induction l generalizing value with
  | nil => rfl
  | cons b l ih =>
    have hb : b.toNat < 256 := b.toNat_lt
    have hroom : (value.toNat + 1) * 256 * 256 ^ l.length ≤ 2 ^ 64 := by
      rw [Nat.mul_assoc, ← Nat.pow_succ']
      exact h
    have hword : (value.toNat + 1) * 256 ≤ 2 ^ 64 :=
      (Nat.le_mul_of_pos_right _ (by positivity)).trans hroom
    have hvalue : (shiftIn value b).toNat = value.toNat * 256 + b.toNat :=
      toNat_shiftIn b (by omega)
    have hrest : ((shiftIn value b).toNat + 1) * 256 ^ l.length ≤ 2 ^ 64 :=
      (Nat.mul_le_mul_right _ (by omega)).trans hroom
    rw [List.foldl_cons, List.foldl_cons, ih hrest, hvalue]

variable {target : Target} {buf : Bytes} {off : ℕ}

/-- The word composed by `quic_read_varint` is the number read by `quicReadVarint`. -/
theorem toNat_foldl_slice {first : UInt8} (hstop : off + quicVarintLen first ≤ buf.length) :
    ((slice buf (off + 1) (off + quicVarintLen first)).foldl shiftIn
        (first &&& 0x3f).toUInt64).toNat =
      (slice buf (off + 1) (off + quicVarintLen first)).foldl
        (fun value b => value * 256 + b.toNat) (first &&& 0x3f).toNat := by
  have hslice := length_slice_varint_le hstop
  have hfirst : (first &&& 0x3f).toUInt64.toNat ≤ 63 := by
    rw [UInt8.toNat_toUInt64]
    exact toNat_first_le first
  refine (toNat_foldl_shiftIn _ ?_).trans (by rw [UInt8.toNat_toUInt64])
  calc
    ((first &&& 0x3f).toUInt64.toNat + 1) *
        256 ^ (slice buf (off + 1) (off + quicVarintLen first)).length
      ≤ 64 * 256 ^ 7 :=
        Nat.mul_le_mul (by omega) (Nat.pow_le_pow_right (by norm_num) hslice)
    _ ≤ 2 ^ 64 := by norm_num

/-! ### The offset -/

/-- **Success.** Where `quicReadVarint` reads an integer, so does the function in place, and the
offset moves behind it. -/
theorem leaves_of_quicReadVarint_eq_ok (hbuf : buf.length ≤ target.isizeMax) {v next : ℕ}
    (h : quicReadVarint buf off = .ok (v, next)) : ∃ value : UInt64, value.toNat = v ∧
      Leaves (quicReadVarintMut target buf) off (.ok value) next := by
  have husize := target.isizeMax_add_lt
  unfold quicReadVarint at h
  cases hfirst : buf[off]? with
  | none =>
    rw [hfirst] at h
    cases h
  | some first =>
    have hoff : off < buf.length := (List.getElem?_eq_some_iff.mp hfirst).1
    have hpos := quicVarintLen_pos first
    have hle := quicVarintLen_le first
    rw [hfirst] at h
    dsimp only at h
    split_ifs at h with hend
    obtain ⟨rfl, rfl⟩ := Prod.mk.inj (Except.ok.inj h)
    refine ⟨_, toNat_foldl_slice (not_lt.mp hend), .get ?_⟩
    rw [hfirst]
    refine .call (.sumBelow_ok (by omega)) ?_
    rw [if_neg hend]
    refine .call (.sumBelow_ok (by omega)) (.call (.sumBelow_ok (by omega)) ?_)
    refine .call (.sliceAt_ok (by omega) (not_lt.mp hend)) (.call (.sumBelow_ok (by omega)) ?_)
    exact .set (.ok _ _)

/-- **Failure.** Where it fails, the offset stays. -/
theorem leaves_of_quicReadVarint_eq_error (hbuf : buf.length ≤ target.isizeMax)
    {e : UdpSniffError} (h : quicReadVarint buf off = .error e) :
    Leaves (quicReadVarintMut target buf) off (.error e) off := by
  have husize := target.isizeMax_add_lt
  unfold quicReadVarint at h
  refine .get ?_
  cases hfirst : buf[off]? with
  | none =>
    rw [hfirst] at h
    cases h
    exact .error _ _
  | some first =>
    have hoff : off < buf.length := (List.getElem?_eq_some_iff.mp hfirst).1
    have hle := quicVarintLen_le first
    rw [hfirst] at h
    dsimp only at h ⊢
    split_ifs at h with hend
    cases h
    refine .call (.sumBelow_ok (by omega)) ?_
    rw [if_pos hend]
    exact .error _ _

/-- **Reading is exact.** In a buffer that fits into memory, an integer is read wherever its
encoding stands, in any of its lengths, and the offset moves by that length. From any offset, also
behind the end, there is a result: no access is out of bounds; an error leaves the offset as it
is. -/
theorem quicReadVarintMut_exact (hbuf : buf.length ≤ target.isizeMax) :
    (∀ (v : Varint) (before after : Bytes), buf = before ++ v.encode ++ after →
      ∃ value : UInt64, value.toNat = v.value ∧
        Leaves (quicReadVarintMut target buf) before.length (.ok value)
          (before.length + v.length)) ∧
    ∀ off, ∃ r next, Leaves (quicReadVarintMut target buf) off r next ∧
      ∀ e, r = .error e → next = off := by
  constructor
  · rintro v before after rfl
    have hremaining :
        Remaining (before ++ v.encode ++ after) before.length (v.encode ++ after) := by
      refine ⟨by simp, ?_⟩
      rw [List.append_assoc, List.drop_left]
    have hread : quicReadVarint (before ++ v.encode ++ after) before.length =
        .ok (v.value, before.length + v.length) := by
      rw [quicReadVarint_encode v hremaining, v.length_encode]
    exact leaves_of_quicReadVarint_eq_ok hbuf hread
  · intro off
    cases hread : quicReadVarint buf off with
    | error e => exact ⟨_, _, leaves_of_quicReadVarint_eq_error hbuf hread, fun _ _ => rfl⟩
    | ok r =>
      obtain ⟨value, -, hleaves⟩ := leaves_of_quicReadVarint_eq_ok hbuf hread
      exact ⟨_, _, hleaves, fun _ h => by cases h⟩

/-- The value 37 in two bytes, behind one byte and in front of another. -/
theorem quicReadVarintMut_exact_twoBytes :
    ∃ value : UInt64, value.toNat = 37 ∧
      Leaves (quicReadVarintMut .bits32 [0xff, 0x40, 0x25, 0x00]) 1 (.ok value) 3 :=
  (quicReadVarintMut_exact (by decide)).1 ⟨37, 1, by decide⟩ [0xff] [0x00] rfl

end XtpRs.Sniff
