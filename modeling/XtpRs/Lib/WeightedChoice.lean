import Mathlib

/-!
# Choice by weights

A number below the sum of some weights falls into the share of one of them: the numbers are dealt
out in order, to each weight as many as it says. The share is found by subtracting the weights one
after the other.

## Main definitions

* `pickIndex`: the weight into whose share a number falls.

## Main results

* `pickIndex_eq_some_iff`: the shares, by the sums of the weights before them.
* `card_pickIndex`: each share has as many numbers as its weight says.
-/

namespace XtpRs.Lib

/-- The position of the weight into whose share the number falls; `none` when it is not below their
sum. -/
def pickIndex : List ℕ → ℕ → Option ℕ
  | [], _ => none
  | w :: ws, r => if r < w then some 0 else (pickIndex ws (r - w)).map (· + 1)

variable {ws : List ℕ} {r i : ℕ}

theorem pickIndex_eq_some_iff :
    pickIndex ws r = some i ↔
      ∃ h : i < ws.length, (ws.take i).sum ≤ r ∧ r < (ws.take i).sum + ws[i] := by
  induction ws generalizing r i with
  | nil => simp [pickIndex]
  | cons w ws ih =>
    rw [pickIndex]
    split_ifs with hr
    · cases i with
      | zero => simp [hr]
      | succ i =>
        simp only [Option.some.injEq, List.take_succ_cons, List.sum_cons]
        constructor
        · exact nofun
        · rintro ⟨-, hle, -⟩
          omega
    · cases i with
      | zero => simp [hr]
      | succ i =>
        simp only [Option.map_eq_some_iff, Nat.add_right_cancel_iff, exists_eq_right, ih,
          List.take_succ_cons, List.sum_cons, List.length_cons, List.getElem_cons_succ,
          Nat.add_lt_add_iff_right]
        exact exists_congr fun _ => by omega

/-- A number below the sum falls into some share. -/
theorem exists_pickIndex (h : r < ws.sum) : ∃ i, pickIndex ws r = some i := by
  induction ws generalizing r with
  | nil => simp at h
  | cons w ws ih =>
    rw [pickIndex]
    split_ifs with hr
    · exact ⟨0, rfl⟩
    · rw [List.sum_cons] at h
      obtain ⟨i, hi⟩ := ih (r := r - w) (by omega)
      exact ⟨i + 1, by rw [hi]; rfl⟩

/-- The weights up to one of them do not exceed all of them. -/
theorem sum_take_add_le (h : i < ws.length) : (ws.take i).sum + ws[i] ≤ ws.sum := by
  rw [← List.sum_take_succ ws i h]
  exact (List.take_sublist (i + 1) ws).sum_le_sum fun _ _ => Nat.zero_le _

/-- **Shares are exact.** Of the numbers below the sum, as many fall into the share of a weight as
the weight says. -/
theorem card_pickIndex (h : i < ws.length) :
    ((Finset.range ws.sum).filter fun r => pickIndex ws r = some i).card = ws[i] := by
  have hle := sum_take_add_le h
  have hshare : (Finset.range ws.sum).filter (fun r => pickIndex ws r = some i) =
      Finset.Ico (ws.take i).sum ((ws.take i).sum + ws[i]) := by
    ext r
    rw [Finset.mem_filter, Finset.mem_range, Finset.mem_Ico, pickIndex_eq_some_iff]
    constructor
    · rintro ⟨_, _, hr⟩
      exact hr
    · exact fun hr => ⟨hr.2.trans_le hle, h, hr⟩
  rw [hshare, Nat.card_Ico, Nat.add_sub_cancel_left]

end XtpRs.Lib
