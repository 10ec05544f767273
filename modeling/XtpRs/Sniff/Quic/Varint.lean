import XtpRs.Lib.Buffer
import XtpRs.Sniff.Udp

/-!
# Variable-length integers

The integers of QUIC: one, two, four or eight bytes in network order, the two highest bits of which
give the length. `quic_read_varint` of `src/sniff/quic.rs` reads one at an offset of a buffer.

## Main definitions

* `quicReadVarint`: the code.
* `Varint`: a value with a length that can hold it, and `Varint.encode`.

## Main results

* `quicReadVarint_encode`: reading inverts every encoding, wherever it stands.
-/

namespace XtpRs.Sniff

open Lib

/-- `quic_varint_len`. -/
def quicVarintLen (first : UInt8) : ℕ :=
  match (first >>> 6).toNat with
  | 0 => 1
  | 1 => 2
  | 2 => 4
  | _ => 8

/-- `quic_read_varint`: the value and the offset behind it. The value has at most 62 bits, so the
shifts of the source lose none. -/
def quicReadVarint (buf : Bytes) (off : ℕ) : Except UdpSniffError (ℕ × ℕ) :=
  match buf[off]? with
  | none => .error .insufficientPrefix
  | some first =>
    let len := quicVarintLen first
    if buf.length < off + len then .error .insufficientPrefix
    else .ok ((slice buf (off + 1) (off + len)).foldl (fun value b => value * 256 + b.toNat)
      (first &&& 0x3f).toNat, off + len)

/-! ### Encoding -/

/-- The lowest `n` bytes of a number, in network order. -/
def beBytes : ℕ → ℕ → Bytes
  | 0, _ => []
  | n + 1, v => beBytes n (v / 256) ++ [UInt8.ofNat v]

theorem length_beBytes (n v : ℕ) : (beBytes n v).length = n := by
  induction n generalizing v with
  | zero => rfl
  | succ n ih => rw [beBytes, List.length_append, ih, List.length_singleton]

/-- Reading bytes in network order. -/
theorem foldl_beBytes (n v acc : ℕ) :
    (beBytes n v).foldl (fun value b => value * 256 + b.toNat) acc =
      acc * 256 ^ n + v % 256 ^ n := by
  induction n generalizing v with
  | zero => simp [beBytes, Nat.mod_one]
  | succ n ih =>
    have hmod : v % 256 ^ (n + 1) = v % 256 + 256 * (v / 256 % 256 ^ n) := by
      rw [Nat.pow_succ', Nat.mod_mul]
    have hpow : acc * 256 ^ (n + 1) = acc * 256 ^ n * 256 := by ring
    rw [beBytes, List.foldl_append, ih, List.foldl_cons, List.foldl_nil, UInt8.toNat_ofNat', hmod,
      hpow]
    omega

/-- The highest byte comes first. -/
theorem beBytes_succ (n v : ℕ) :
    beBytes (n + 1) v = UInt8.ofNat (v / 256 ^ n) :: beBytes n v := by
  induction n generalizing v with
  | zero => simp [beBytes]
  | succ n ih =>
    have htail : beBytes (n + 1) v = beBytes n (v / 256) ++ [UInt8.ofNat v] := rfl
    rw [beBytes, ih, List.cons_append, ← htail, Nat.div_div_eq_div_mul, ← Nat.pow_succ']

/-- A value below `2 ^ 62` with the exponent of a length that can hold it. -/
structure Varint where
  value : ℕ
  exponent : Fin 4
  lt : value < 2 ^ (8 * 2 ^ exponent.val - 2)

namespace Varint

/-- The number of bytes of the encoding. -/
def length (v : Varint) : ℕ := 2 ^ v.exponent.val

/-- The exponent in the two highest bits, the value below them. -/
def word (v : Varint) : ℕ := v.exponent.val * 2 ^ (8 * v.length - 2) + v.value

/-- The encoding. -/
def encode (v : Varint) : Bytes := beBytes v.length v.word

theorem length_encode (v : Varint) : v.encode.length = v.length :=
  length_beBytes _ _

theorem length_pos (v : Varint) : 0 < v.length :=
  Nat.two_pow_pos _

theorem two_pow_eq (v : Varint) : 2 ^ (8 * v.length - 2) = 64 * 256 ^ (v.length - 1) := by
  have hpos := v.length_pos
  have hsplit : 8 * v.length - 2 = 6 + 8 * (v.length - 1) := by omega
  rw [hsplit, pow_add, pow_mul]
  norm_num

theorem word_eq (v : Varint) :
    v.word = v.exponent.val * 64 * 256 ^ (v.length - 1) + v.value := by
  rw [word, two_pow_eq, Nat.mul_assoc]

/-- The bits of the value in the highest byte. -/
theorem value_div_lt (v : Varint) : v.value / 256 ^ (v.length - 1) < 64 := by
  rw [Nat.div_lt_iff_lt_mul (by positivity), ← v.two_pow_eq]
  exact v.lt

/-- The highest byte: exponent and highest bits of the value. -/
theorem word_div (v : Varint) : v.word / 256 ^ (v.length - 1) =
    v.exponent.val * 64 + v.value / 256 ^ (v.length - 1) := by
  rw [word_eq, Nat.mul_comm (_ * 64), Nat.mul_add_div (by positivity)]

theorem word_mod (v : Varint) :
    v.word % 256 ^ (v.length - 1) = v.value % 256 ^ (v.length - 1) := by
  rw [word_eq, Nat.mul_comm (_ * 64), Nat.mul_add_mod]

theorem encode_eq (v : Varint) :
    v.encode = UInt8.ofNat (v.exponent.val * 64 + v.value / 256 ^ (v.length - 1)) ::
      beBytes (v.length - 1) v.word := by
  have hlength : v.length = v.length - 1 + 1 := by
    have hpos := v.length_pos
    omega
  rw [encode, hlength, beBytes_succ, Nat.add_sub_cancel, word_div]

theorem quicVarintLen_first (v : Varint) :
    quicVarintLen (UInt8.ofNat (v.exponent.val * 64 + v.value / 256 ^ (v.length - 1))) =
      v.length := by
  have hlt := v.value_div_lt
  generalize v.value / 256 ^ (v.length - 1) = high at hlt
  have hexponent := v.exponent.isLt
  have hsix : (6 : UInt8).toNat % 8 = 6 := rfl
  have hshift : (UInt8.ofNat (v.exponent.val * 64 + high) >>> 6).toNat = v.exponent.val := by
    rw [UInt8.toNat_shiftRight, UInt8.toNat_ofNat', hsix, Nat.shiftRight_eq_div_pow]
    omega
  rw [quicVarintLen, hshift, length]
  generalize v.exponent = k
  fin_cases k <;> rfl

theorem first_and (v : Varint) :
    (UInt8.ofNat (v.exponent.val * 64 + v.value / 256 ^ (v.length - 1)) &&& 0x3f).toNat =
      v.value / 256 ^ (v.length - 1) := by
  have hlt := v.value_div_lt
  generalize v.value / 256 ^ (v.length - 1) = high at hlt ⊢
  have hmask : (0x3f : UInt8).toNat = 2 ^ 6 - 1 := rfl
  rw [UInt8.toNat_and, UInt8.toNat_ofNat', hmask, Nat.and_two_pow_sub_one_eq_mod]
  omega

end Varint

/-- **Reading inverts encoding.** A variable-length integer is read back wherever its encoding
stands, and the offset moves behind it. -/
theorem quicReadVarint_encode {buf rest : Bytes} {off : ℕ} (v : Varint)
    (h : Remaining buf off (v.encode ++ rest)) :
    quicReadVarint buf off = .ok (v.value, off + v.encode.length) := by
  have hpos := v.length_pos
  have hlength := h.length_eq
  rw [List.length_append, v.length_encode] at hlength
  have hhead : buf[off]? =
      some (UInt8.ofNat (v.exponent.val * 64 + v.value / 256 ^ (v.length - 1))) := by
    rw [v.encode_eq, List.cons_append] at h
    exact h.getElem?_head
  have htail : slice buf (off + 1) (off + v.length) = beBytes (v.length - 1) v.word := by
    rw [h.slice_eq (by rw [v.length_encode]), slice, v.encode_eq, List.drop_one, List.tail_cons,
      List.take_of_length_le (by rw [length_beBytes])]
  rw [quicReadVarint, hhead]
  dsimp only
  rw [v.quicVarintLen_first, if_neg (by omega), htail, foldl_beBytes, v.first_and, v.word_mod,
    Nat.div_add_mod', v.length_encode]

/-- A small value in a single byte. -/
theorem quicReadVarint_byte {buf rest : Bytes} {off : ℕ} {b : UInt8} (hb : b.toNat < 64)
    (h : Remaining buf off (b :: rest)) : quicReadVarint buf off = .ok (b.toNat, off + 1) := by
  have hencode : (⟨b.toNat, 0, hb⟩ : Varint).encode = [b] := by
    simp [Varint.encode, Varint.word, Varint.length, beBytes]
  have hread : Remaining buf off ((⟨b.toNat, 0, hb⟩ : Varint).encode ++ rest) := by
    rw [hencode]
    exact h
  rw [quicReadVarint_encode _ hread, hencode]
  rfl

end XtpRs.Sniff
