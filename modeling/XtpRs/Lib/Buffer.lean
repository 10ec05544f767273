import Mathlib

/-!
# Buffers and offsets

A parser that keeps a buffer and an offset into it is described by what lies ahead of the offset:
`Remaining buf off s` says that `off` is a position of `buf` and `s` is the rest from there. Reading
an encoded item at the front of the rest moves the offset by the length of the item.

`slice buf a b` is the part of a buffer between two positions; a slice of an item that lies ahead
is a slice of the item itself.

`resize` and `overwrite` write into a buffer; their lemmas read it afterwards.

## Main results

* `Remaining.advance`: moving past an item.
* `Remaining.slice_eq`, `Remaining.getElem?_eq`: reading within an item.
* `Remaining.exists_cons`, `Remaining.exists_append`: what lies ahead of a position.
* `drop_eq_slice_append`: what has been read stands in the buffer.
* `getElem?_resize`, `getElem?_overwrite`: reading after writing.
-/

namespace XtpRs.Lib

variable {α : Type*}

/-- The elements of `buf` from position `a` up to position `b`. -/
def slice (buf : List α) (a b : ℕ) : List α :=
  (buf.drop a).take (b - a)

/-- The rest of `buf` from the position `off` on is `s`. -/
structure Remaining (buf : List α) (off : ℕ) (s : List α) : Prop where
  le : off ≤ buf.length
  eq : buf.drop off = s

namespace Remaining

variable {buf s t : List α} {off : ℕ}

theorem start (buf : List α) : Remaining buf 0 buf :=
  ⟨Nat.zero_le _, rfl⟩

theorem length_eq (h : Remaining buf off s) : off + s.length = buf.length := by
  have hle := h.le
  rw [← h.eq, List.length_drop]
  omega

theorem unique (h : Remaining buf off s) (h' : Remaining buf off t) : s = t :=
  h.eq.symm.trans h'.eq

/-- Moving past an item. -/
theorem advance (h : Remaining buf off (s ++ t)) : Remaining buf (off + s.length) t := by
  have hlength := h.length_eq
  rw [List.length_append] at hlength
  refine ⟨by omega, ?_⟩
  rw [← List.drop_drop, h.eq, List.drop_left]

theorem advance_cons {a : α} (h : Remaining buf off (a :: t)) : Remaining buf (off + 1) t :=
  h.advance (s := [a])

/-- Reading an element within an item. -/
theorem getElem?_eq (h : Remaining buf off (s ++ t)) {i : ℕ} (hi : i < s.length) :
    buf[off + i]? = s[i]? := by
  rw [← List.getElem?_drop, h.eq, List.getElem?_append_left hi]

theorem getElem?_head {a : α} (h : Remaining buf off (a :: t)) : buf[off]? = some a := by
  have hhead := h.getElem?_eq (s := [a]) (i := 0) (by simp)
  simpa using hhead

/-- Reading a slice within an item. -/
theorem slice_eq (h : Remaining buf off (s ++ t)) {a b : ℕ} (hb : b ≤ s.length) :
    slice buf (off + a) (off + b) = slice s a b := by
  rw [slice, slice, ← List.drop_drop, h.eq, Nat.add_sub_add_left]
  by_cases ha : a ≤ s.length
  · rw [List.drop_append_of_le_length ha, List.take_append_of_le_length]
    rw [List.length_drop]
    omega
  · have hzero : b - a = 0 := by omega
    rw [hzero, List.take_zero, List.take_zero]

/-- Reading an item as a slice. -/
theorem slice_self (h : Remaining buf off (s ++ t)) : slice buf off (off + s.length) = s := by
  have hslice := h.slice_eq (a := 0) le_rfl
  simpa [slice] using hslice

/-- An element lies ahead of a position in front of the end. -/
theorem exists_cons (h : off < buf.length) : ∃ a t, Remaining buf off (a :: t) := by
  refine ⟨buf[off], buf.drop (off + 1), h.le, ?_⟩
  rw [List.drop_eq_getElem_cons h]

/-- An item of a given length lies ahead if it ends within the buffer. -/
theorem exists_append {n : ℕ} (h : off + n ≤ buf.length) :
    ∃ s t, s.length = n ∧ Remaining buf off (s ++ t) := by
  refine ⟨(buf.drop off).take n, (buf.drop off).drop n, ?_, by omega, ?_⟩
  · rw [List.length_take, List.length_drop]
    omega
  · rw [List.take_append_drop]

end Remaining

theorem length_slice {buf : List α} {a b : ℕ} (hb : b ≤ buf.length) :
    (slice buf a b).length = b - a := by
  rw [slice, List.length_take, List.length_drop]
  omega

/-- A slice within the front part of a buffer. -/
theorem slice_append_left {buf : List α} (rest : List α) {a b : ℕ} (hb : b ≤ buf.length) :
    slice (buf ++ rest) a b = slice buf a b := by
  have hslice := (Remaining.start (buf ++ rest)).slice_eq (a := a) hb
  rwa [Nat.zero_add, Nat.zero_add] at hslice

/-- The first element of a slice. -/
theorem slice_eq_cons {buf : List α} {a b : ℕ} (ha : a < buf.length) (hab : a < b) :
    slice buf a b = buf[a] :: slice buf (a + 1) b := by
  have hlen : b - a = b - (a + 1) + 1 := by omega
  rw [slice, slice, List.drop_eq_getElem_cons ha, hlen, List.take_succ_cons]

theorem slice_self_eq_nil (buf : List α) (a : ℕ) : slice buf a a = [] := by
  rw [slice, Nat.sub_self, List.take_zero]

/-- What lies ahead of a position is a slice and what lies ahead of its end. -/
theorem drop_eq_slice_append (buf : List α) {a b : ℕ} (hab : a ≤ b) :
    buf.drop a = slice buf a b ++ buf.drop b := by
  have hsplit := List.take_append_drop (b - a) (buf.drop a)
  rw [List.drop_drop, Nat.add_sub_cancel' hab] at hsplit
  exact hsplit.symm

/-! ### Writing -/

/-- A buffer grown to at least `n` elements, the new ones being `a`. -/
def resize (buf : List α) (n : ℕ) (a : α) : List α :=
  buf ++ List.replicate (n - buf.length) a

/-- A buffer with `data` copied over the elements from `off` on. -/
def overwrite (buf : List α) (off : ℕ) (data : List α) : List α :=
  buf.take off ++ data ++ buf.drop (off + data.length)

/-- The front of a buffer up to an element that has been replaced. -/
theorem take_succ_set {buf : List α} {i : ℕ} (hi : i < buf.length) (a : α) :
    (buf.set i a).take (i + 1) = buf.take i ++ [a] := by
  rw [List.take_succ_eq_append_getElem (by rwa [List.length_set]), List.take_set_of_le le_rfl,
    List.getElem_set_self]

/-- A buffer written over as a whole. -/
theorem overwrite_zero {buf data : List α} (h : data.length = buf.length) :
    overwrite buf 0 data = data := by
  rw [overwrite, List.take_zero, List.nil_append, Nat.zero_add, h, List.drop_length,
    List.append_nil]

theorem length_resize (buf : List α) (n : ℕ) (a : α) :
    (resize buf n a).length = max buf.length n := by
  rw [resize, List.length_append, List.length_replicate]
  omega

theorem length_overwrite {buf data : List α} {off : ℕ} (h : off + data.length ≤ buf.length) :
    (overwrite buf off data).length = buf.length := by
  simp only [overwrite, List.length_append, List.length_take, List.length_drop]
  omega

theorem getElem?_resize (buf : List α) (n : ℕ) (a : α) (i : ℕ) :
    (resize buf n a)[i]? =
      if i < buf.length then buf[i]? else if i < n then some a else none := by
  rw [resize]
  split_ifs with hbuf hn
  · rw [List.getElem?_append_left hbuf]
  · rw [List.getElem?_append_right (by omega), List.getElem?_replicate, if_pos (by omega)]
  · rw [List.getElem?_append_right (by omega), List.getElem?_replicate, if_neg (by omega)]

theorem getElem?_overwrite {buf data : List α} {off : ℕ} (h : off + data.length ≤ buf.length)
    (i : ℕ) : (overwrite buf off data)[i]? =
      if off ≤ i ∧ i < off + data.length then data[i - off]? else buf[i]? := by
  have htake : (buf.take off).length = off := by
    rw [List.length_take]
    omega
  rw [overwrite]
  split_ifs with hi
  · rw [List.getElem?_append_left (by rw [List.length_append, htake]; omega),
      List.getElem?_append_right (by omega), htake]
  · rcases lt_or_ge i off with hlt | hge
    · rw [List.getElem?_append_left (by rw [List.length_append, htake]; omega),
        List.getElem?_append_left (by omega), List.getElem?_take_of_lt hlt]
    · rw [List.getElem?_append_right (by rw [List.length_append, htake]; omega),
        List.length_append, htake, List.getElem?_drop]
      congr 1
      omega

end XtpRs.Lib
