import XtpRs.Lib.WeightedChoice
import XtpRs.Upstream.Set

/-!
# The weighted choice

The weighted choice of `UpstreamSet::pick_weighted`, on `u64` with every operation checked: the
squares of the scores, their sum, and the loop that subtracts the weights from the number drawn. For
lists and scores within the limits of a set no operation overflows, and the loop deals the numbers
below the sum out to the candidates by their squares.

## Main definitions

* `squareWeights`, `totalWeight`, `selectionLoop`: the computation, `none` where it overflows.

## Main results

* `selectionLoop_eq`: the loop finds the share into which a number falls.
* `squareWeighted_selection_exact`: each candidate is picked for as many numbers as its score
  squared.
-/

namespace XtpRs.Upstream

open Lib

/-- `a + b`, which must not overflow. -/
def checkedAdd (a b : UInt64) : Option UInt64 :=
  if a.toNat + b.toNat < UInt64.size then some (a + b) else none

/-- `a - b`, which must not underflow. -/
def checkedSub (a b : UInt64) : Option UInt64 :=
  if b ≤ a then some (a - b) else none

/-- `a * b`, which must not overflow. -/
def checkedMul (a b : UInt64) : Option UInt64 :=
  if a.toNat * b.toNat < UInt64.size then some (a * b) else none

/-- The list `weights` of `pick_weighted`. -/
def squareWeights : List UInt64 → Option (List UInt64)
  | [] => some []
  | s :: scores => do
    let w ← checkedMul s s
    let weights ← squareWeights scores
    return w :: weights

/-- The value `total_weight` of `pick_weighted`, from the sum so far. -/
def totalWeight : List UInt64 → UInt64 → Option UInt64
  | [], total => some total
  | w :: weights, total => do
    let total ← checkedAdd total w
    totalWeight weights total

/-- The loop of `pick_weighted`: the position at which it picks, or `none` when it ends without. -/
def selectionLoop : List UInt64 → UInt64 → Option (Option ℕ)
  | [], _ => some none
  | w :: weights, r =>
    if r < w then some (some 0)
    else do
      let r ← checkedSub r w
      let picked ← selectionLoop weights r
      return picked.map (· + 1)

variable {scores weights : List UInt64} {items : List Upstream}

/-- The loop never underflows, and finds the share into which the number falls. -/
theorem selectionLoop_eq (weights : List UInt64) (r : UInt64) :
    selectionLoop weights r = some (pickIndex (weights.map UInt64.toNat) r.toNat) := by
  induction weights generalizing r with
  | nil => rfl
  | cons w weights ih =>
    rw [selectionLoop, List.map_cons, pickIndex]
    by_cases hr : r < w
    · rw [if_pos hr, if_pos (UInt64.lt_iff_toNat_lt.mp hr)]
    · have hle : w ≤ r := UInt64.not_lt.mp hr
      rw [if_neg hr, if_neg (fun h => hr (UInt64.lt_iff_toNat_lt.mpr h)), checkedSub, if_pos hle,
        ← UInt64.toNat_sub_of_le r w hle]
      simp [ih]

/-- Scores whose squares fit in 64 bits have weights. -/
theorem squareWeights_eq (h : ∀ s ∈ scores, s.toNat * s.toNat < UInt64.size) :
    squareWeights scores = some (scores.map fun s => s * s) := by
  induction scores with
  | nil => rfl
  | cons s scores ih =>
    have hrest := ih fun t ht => h t (List.mem_cons_of_mem s ht)
    rw [squareWeights, checkedMul, if_pos (h s List.mem_cons_self), hrest]
    rfl

theorem map_toNat_squares (h : ∀ s ∈ scores, s.toNat * s.toNat < UInt64.size) :
    (scores.map fun s => s * s).map UInt64.toNat = scores.map fun s => s.toNat * s.toNat := by
  rw [List.map_map]
  refine List.map_congr_left fun s hs => ?_
  exact (UInt64.toNat_mul s s).trans (Nat.mod_eq_of_lt (h s hs))

/-- Weights whose sum fits in 64 bits have a total. -/
theorem exists_totalWeight (weights : List UInt64) (acc : UInt64)
    (h : acc.toNat + (weights.map UInt64.toNat).sum < UInt64.size) :
    ∃ total, totalWeight weights acc = some total ∧
      total.toNat = acc.toNat + (weights.map UInt64.toNat).sum := by
  induction weights generalizing acc with
  | nil => exact ⟨acc, rfl, rfl⟩
  | cons w weights ih =>
    rw [List.map_cons, List.sum_cons] at h
    have hlt : acc.toNat + w.toNat < UInt64.size := by omega
    have hadd : (acc + w).toNat = acc.toNat + w.toNat := by
      rw [UInt64.toNat_add, Nat.mod_eq_of_lt hlt]
    obtain ⟨total, htotal, hsum⟩ := ih (acc + w) (by omega)
    refine ⟨total, ?_, ?_⟩
    · rw [totalWeight, checkedAdd, if_pos hlt]
      exact htotal
    · rw [hsum, hadd, List.map_cons, List.sum_cons, Nat.add_assoc]

/-- The choice over pairs of an upstream and its weight is the upstream at the picked position. -/
theorem pickByWeight_zip {items : List Upstream} {weights : List ℕ}
    (h : weights.length = items.length) (r : ℕ) :
    UpstreamSet.pickByWeight (items.zip weights) r = (pickIndex weights r).bind (items[·]?) := by
  induction items generalizing weights r with
  | nil =>
    obtain rfl := List.length_eq_zero_iff.mp h
    rfl
  | cons up items ih =>
    obtain ⟨w, weights, rfl⟩ := List.exists_cons_of_length_eq_add_one h
    rw [List.zip_cons_cons, UpstreamSet.pickByWeight, pickIndex]
    split_ifs
    · rfl
    · rw [ih (Nat.succ.inj h), Option.bind_map]
      rfl

/-- With a positive total, the choice is the upstream into whose share the draw falls. -/
theorem pickSquareWeighted_eq {reads : UpstreamSet.PickReads} {first : Upstream} {weights : List ℕ}
    {i : ℕ} (hweights : (items.map fun up => reads.effectiveScore .weight up *
      reads.effectiveScore .weight up) = weights)
    (htotal : weights.sum % 2 ^ 64 ≠ 0)
    (hi : pickIndex weights (reads.pickDraw % (weights.sum % 2 ^ 64)) = some i)
    (hlt : i < items.length) : UpstreamSet.pickSquareWeighted first items reads = items[i] := by
  have hlen : weights.length = items.length := by rw [← hweights, List.length_map]
  simp only [UpstreamSet.pickSquareWeighted, hweights, if_neg htotal, pickByWeight_zip hlen, hi]
  rw [Option.bind_some, List.getElem?_eq_getElem hlt, Option.getD_some]

/-- The squares of scores in range fit in 64 bits, and so does their sum over a list of at most
100000. -/
theorem sum_squares_lt (hlen : scores.length ≤ 100000) (h : ∀ s ∈ scores, s ≤ 10000000) :
    (scores.map fun s => s.toNat * s.toNat).sum < UInt64.size := by
  have hsq : ∀ x ∈ scores.map fun s => s.toNat * s.toNat, x ≤ 10000000 * 10000000 := by
    intro x hx
    obtain ⟨s, hs, rfl⟩ := List.mem_map.mp hx
    have hle : s.toNat ≤ 10000000 := UInt64.le_iff_toNat_le.mp (h s hs)
    exact Nat.mul_le_mul hle hle
  have hsum := List.sum_le_card_nsmul _ _ hsq
  rw [List.length_map, smul_eq_mul] at hsum
  have hsize : UInt64.size = 2 ^ 64 := rfl
  omega

/-- Among positive scores the squares have a positive sum. -/
theorem sum_squares_pos (hne : scores ≠ []) (h : ∀ s ∈ scores, 1 ≤ s) :
    0 < (scores.map fun s => s.toNat * s.toNat).sum := by
  obtain ⟨s, hs⟩ := List.exists_mem_of_ne_nil scores hne
  have hone : 1 ≤ s.toNat := UInt64.le_iff_toNat_le.mp (h s hs)
  exact (Nat.mul_pos hone hone).trans_le (List.le_sum_of_mem (List.mem_map_of_mem hs))

/-- The weights of the choice are the squares of the effective scores. -/
theorem map_weights_of_map {score : Upstream → ℕ}
    (h : items.map score = scores.map UInt64.toNat) :
    (items.map fun up => score up * score up) = scores.map fun s => s.toNat * s.toNat := by
  have hsquares := congrArg (List.map fun x => x * x) h
  rwa [List.map_map, List.map_map] at hsquares

/-- **Square-weighted selection is exact.** Let there be at most 100000 candidates, at least one,
with scores between 1 and 10000000 that do not change during the choice. Then the squares and their
sum fit in `u64` and the sum is positive. For every number below it the loop ends without underflow
in a position of the list, and the candidate there is the one chosen; so neither the uniform choice
nor the first candidate as a fallback is reached. Each position is picked for exactly as many
numbers below the sum as the square of its score. -/
theorem squareWeighted_selection_exact (hitems : items ≠ []) (hmax : items.length ≤ 100000)
    (hlen : scores.length = items.length) (hscores : ∀ s ∈ scores, 1 ≤ s ∧ s ≤ 10000000) :
    ∃ weights total,
      squareWeights scores = some weights ∧ totalWeight weights 0 = some total ∧ 0 < total ∧
      (∀ r < total, ∃ i up, selectionLoop weights r = some (some i) ∧ items[i]? = some up ∧
        ∀ (reads : UpstreamSet.PickReads) (first : Upstream),
          items.map (reads.effectiveScore .weight) = scores.map UInt64.toNat →
          reads.pickDraw % total.toNat = r.toNat →
          UpstreamSet.pickSquareWeighted first items reads = up) ∧
      ∀ i (hi : i < scores.length),
        ((Finset.range total.toNat).filter fun r =>
          selectionLoop weights (.ofNat r) = some (some i)).card = scores[i].toNat ^ 2 := by
  have hsum := sum_squares_lt (hlen.trans_le hmax) fun s hs => (hscores s hs).2
  have hsquare : ∀ s ∈ scores, s.toNat * s.toNat < UInt64.size := fun s hs =>
    (List.le_sum_of_mem (List.mem_map_of_mem hs)).trans_lt hsum
  -- the weights and their total, as natural numbers
  have hnat := map_toNat_squares hsquare
  obtain ⟨total, htotal, htoNat⟩ := exists_totalWeight (scores.map fun s => s * s) 0
    (by rw [hnat]; exact (Nat.zero_add _).trans_lt hsum)
  rw [hnat] at htoNat
  set squares := scores.map fun s => s.toNat * s.toNat with hsquares
  replace htoNat : total.toNat = squares.sum := htoNat.trans (Nat.zero_add _)
  have hne : scores ≠ [] := by
    rintro rfl
    exact hitems (List.length_eq_zero_iff.mp hlen.symm)
  have hpos : 0 < squares.sum := sum_squares_pos hne fun s hs => (hscores s hs).1
  refine ⟨_, total, squareWeights_eq hsquare, htotal, ?_, fun r hr => ?_, fun i hi => ?_⟩
  · exact UInt64.lt_iff_toNat_lt.mpr (htoNat ▸ hpos)
  · have hlt : r.toNat < squares.sum := htoNat ▸ UInt64.lt_iff_toNat_lt.mp hr
    obtain ⟨i, hi⟩ := exists_pickIndex hlt
    obtain ⟨hil, -⟩ := pickIndex_eq_some_iff.mp hi
    have hil' : i < items.length := by rwa [hsquares, List.length_map, hlen] at hil
    refine ⟨i, items[i], ?_, List.getElem?_eq_getElem hil', fun reads first heff hdraw => ?_⟩
    · rw [selectionLoop_eq, hnat, hi]
    · have hmod : squares.sum % 2 ^ 64 = squares.sum := Nat.mod_eq_of_lt hsum
      refine pickSquareWeighted_eq (map_weights_of_map heff) (hmod.trans_ne hpos.ne') ?_ hil'
      rw [hmod, ← htoNat, hdraw, hi]
  · have hi' : i < squares.length := by rwa [hsquares, List.length_map]
    have hval : squares[i] = scores[i].toNat ^ 2 := by rw [List.getElem_map, Nat.pow_two]
    rw [← hval, ← card_pickIndex hi', htoNat]
    refine congrArg Finset.card (Finset.filter_congr fun r hr => ?_)
    have hr' : r < UInt64.size := (Finset.mem_range.mp hr).trans hsum
    rw [selectionLoop_eq, hnat, UInt64.toNat_ofNat_of_lt' hr', Option.some.injEq]

/-- An upstream on the loopback address. -/
def localUpstream (id : Str) (port : UInt16) : Upstream where
  id
  addr := .v4 ⟨127, 0, 0, 1⟩ port
  groups := []
  gain := .finite 1

/-- Of the numbers below 13, the candidates with the scores 2 and 3 get four and nine. -/
theorem squareWeighted_selection_exact_twoCandidates :
    squareWeights [2, 3] = some [4, 9] ∧ totalWeight [4, 9] 0 = some 13 ∧
      (∀ r < (13 : UInt64), ∃ i up, selectionLoop [4, 9] r = some (some i) ∧
        [localUpstream [0x61] 1080, localUpstream [0x62] 1081][i]? = some up) ∧
      ((Finset.range 13).filter fun r =>
        selectionLoop [4, 9] (.ofNat r) = some (some 0)).card = 4 ∧
      ((Finset.range 13).filter fun r =>
        selectionLoop [4, 9] (.ofNat r) = some (some 1)).card = 9 := by
  have hscores : ∀ s ∈ ([2, 3] : List UInt64), 1 ≤ s ∧ s ≤ 10000000 := by simp
  have hitems : [localUpstream [0x61] 1080, localUpstream [0x62] 1081] ≠ [] := List.cons_ne_nil _ _
  have hsquares : squareWeights [2, 3] = some [4, 9] := by decide +kernel
  have hsum : totalWeight [4, 9] 0 = some 13 := by decide +kernel
  obtain ⟨weights, total, hweights, htotal, -, hloop, hcard⟩ :=
    squareWeighted_selection_exact hitems (by decide) rfl hscores
  rw [hsquares, Option.some.injEq] at hweights
  subst hweights
  rw [hsum, Option.some.injEq] at htotal
  subst htotal
  refine ⟨hsquares, hsum, fun r hr => ?_, hcard 0 Nat.zero_lt_two, hcard 1 Nat.one_lt_two⟩
  obtain ⟨i, up, hi, hup, -⟩ := hloop r hr
  exact ⟨i, up, hi, hup⟩

end XtpRs.Upstream
