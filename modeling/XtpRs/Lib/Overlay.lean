import Mathlib

/-!
# Data written over data

Pieces of data are written at offsets, in any order, and a piece hides what was written before it at
the positions it covers. `overlay` is what can be read afterwards at each position: the element of
the last write that covers it, if there is one (`overlay_eq_some_iff`, `overlay_eq_none_iff`).
-/

namespace XtpRs.Lib

variable {α : Type*}

/-- A piece of data at an offset. -/
structure Write (α : Type*) where
  offset : ℕ
  data : List α
  deriving DecidableEq, Repr

namespace Write

variable {w : Write α} {i : ℕ}

/-- The positions of a write. -/
def Covers (w : Write α) (i : ℕ) : Prop :=
  w.offset ≤ i ∧ i < w.offset + w.data.length

instance (w : Write α) (i : ℕ) : Decidable (w.Covers i) :=
  inferInstanceAs (Decidable (_ ∧ _))

/-- The element written at a position, if it is covered. -/
def get? (w : Write α) (i : ℕ) : Option α :=
  if w.Covers i then w.data[i - w.offset]? else none

theorem get?_of_covers (h : w.Covers i) : w.get? i = w.data[i - w.offset]? := if_pos h

theorem get?_eq_none_iff : w.get? i = none ↔ ¬w.Covers i := by
  constructor
  · intro hnone h
    rw [get?_of_covers h, List.getElem?_eq_none_iff] at hnone
    have hlt := h.2
    have hle := h.1
    omega
  · exact fun h => if_neg h

theorem covers_of_get?_eq_some {a : α} (h : w.get? i = some a) : w.Covers i := by
  by_contra hnot
  rw [get?_eq_none_iff.mpr hnot] at h
  cases h

end Write

/-- What stands at a position after some writes, the last of them at the end. -/
def overlay (ws : List (Write α)) (i : ℕ) : Option α :=
  ws.reverse.findSome? fun w => w.get? i

variable {ws : List (Write α)} {w : Write α} {i : ℕ} {a : α}

/-- One more write hides what stands at the positions it covers. -/
theorem overlay_concat :
    overlay (ws ++ [w]) i = if w.Covers i then w.data[i - w.offset]? else overlay ws i := by
  rw [overlay, List.reverse_concat, List.findSome?_cons]
  split_ifs with h
  · obtain ⟨a, ha⟩ := Option.ne_none_iff_exists'.mp (mt Write.get?_eq_none_iff.mp (not_not.mpr h))
    rw [← Write.get?_of_covers h, ha]
  · rw [Write.get?_eq_none_iff.mpr h]
    rfl

/-- Nothing stands where nothing was written. -/
theorem overlay_eq_none_iff : overlay ws i = none ↔ ∀ w ∈ ws, ¬w.Covers i := by
  simp only [overlay, List.findSome?_eq_none_iff, List.mem_reverse, Write.get?_eq_none_iff]

/-- The last write that covers a position decides. -/
theorem overlay_eq_some_iff : overlay ws i = some a ↔
    ∃ before w after, ws = before ++ w :: after ∧ w.Covers i ∧ w.data[i - w.offset]? = some a ∧
      ∀ v ∈ after, ¬v.Covers i := by
  rw [overlay, List.findSome?_eq_some_iff]
  constructor
  · rintro ⟨after, w, before, hsplit, hw, hafter⟩
    have hcovers := Write.covers_of_get?_eq_some hw
    refine ⟨before.reverse, w, after.reverse, ?_, hcovers, ?_, fun v hv => ?_⟩
    · rw [← List.reverse_reverse ws, hsplit]
      simp
    · rw [← Write.get?_of_covers hcovers, hw]
    · exact Write.get?_eq_none_iff.mp (hafter v (List.mem_reverse.mp hv))
  · rintro ⟨before, w, after, rfl, hcovers, hw, hafter⟩
    refine ⟨after.reverse, w, before.reverse, by simp, ?_, fun v hv => ?_⟩
    · rw [Write.get?_of_covers hcovers, hw]
    · exact Write.get?_eq_none_iff.mpr (hafter v (List.mem_reverse.mp hv))

end XtpRs.Lib
