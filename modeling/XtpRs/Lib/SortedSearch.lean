import Mathlib

/-!
# Search in a sorted list

A list is sorted by a key, greatest first and stable, and searched from the beginning. The element
found has the greatest key among those that can be found. Among the elements with that key any one
can be found, in a list with the same elements in a suitable order.

## Main definitions

* `sortByKeyDesc`: the list sorted by a key.
* `IsBest`: an element with the greatest key among those of a kind.
* `Chooses`: an optional result is one of those allowed, and absent only if none is.

## Main results

* `isBest_of_findSome?`: the element found is a best one.
* `findSome?_eq_none_iff`: nothing is found if no element is of the kind.
* `findSome?_sortByKeyDesc_cons`: a best element at the front of the list is found.
-/

namespace XtpRs.Lib

variable {α β : Type*}

/-- A stable sort by a key, greatest first. -/
def sortByKeyDesc (key : α → ℕ) (l : List α) : List α :=
  l.insertionSort fun a b => key b ≤ key a

/-- The element is of the kind, and no element of the kind has a greater key. -/
structure IsBest (key : α → ℕ) (kind : α → Prop) (l : Set α) (a : α) : Prop where
  mem : a ∈ l
  of_kind : kind a
  le : ∀ b ∈ l, kind b → key b ≤ key a

/-- The result is one of those allowed; there is none only if none is allowed. -/
structure Chooses (o : Option β) (allowed : β → Prop) : Prop where
  of_some : ∀ r, o = some r → allowed r
  of_none : o = none → ∀ r, ¬allowed r

theorem Chooses.isSome_iff {o : Option β} {allowed : β → Prop} (h : Chooses o allowed) :
    o.isSome = true ↔ ∃ r, allowed r := by
  constructor
  · intro hsome
    obtain ⟨r, hr⟩ := Option.isSome_iff_exists.mp hsome
    exact ⟨r, h.of_some r hr⟩
  · rintro ⟨r, hr⟩
    by_contra hnone
    exact h.of_none (Option.not_isSome_iff_eq_none.mp hnone) r hr

theorem Chooses.eq_none {o : Option β} {allowed : β → Prop} (h : Chooses o allowed)
    (hnot : ∀ r, ¬allowed r) : o = none := by
  cases o with
  | none => rfl
  | some r => exact absurd (h.of_some r rfl) (hnot r)

variable {key : α → ℕ} {g : α → Option β} {l : List α} {a : α} {r : β}

theorem mem_sortByKeyDesc : a ∈ sortByKeyDesc key l ↔ a ∈ l :=
  List.mem_insertionSort _

theorem pairwise_sortByKeyDesc (key : α → ℕ) (l : List α) :
    (sortByKeyDesc key l).Pairwise fun a b => key b ≤ key a := by
  have htotal : Std.Total fun a b : α => key b ≤ key a := ⟨fun a b => le_total (key b) (key a)⟩
  have htrans : IsTrans α fun a b => key b ≤ key a := ⟨fun a b c hab hbc => hbc.trans hab⟩
  exact List.pairwise_insertionSort _ l

theorem map_find?_eq_findSome? (p : α → Bool) (f : α → β) (l : List α) :
    (l.find? p).map f = l.findSome? fun a => if p a then some (f a) else none := by
  induction l with
  | nil => rfl
  | cons a l ih =>
    rw [List.find?_cons, List.findSome?_cons]
    cases p a with
    | true => rfl
    | false => exact ih

theorem findSome?_eq_none_iff :
    (sortByKeyDesc key l).findSome? g = none ↔ ∀ a ∈ l, g a = none := by
  rw [List.findSome?_eq_none_iff]
  exact forall_congr' fun a => imp_congr_left mem_sortByKeyDesc

/-- **What is found.** The element that yields the result has the greatest key among those that
yield one. -/
theorem isBest_of_findSome? (h : (sortByKeyDesc key l).findSome? g = some r) :
    ∃ a, g a = some r ∧ IsBest key (fun a => (g a).isSome = true) {a | a ∈ l} a := by
  obtain ⟨front, a, rest, hsplit, ha, hfront⟩ := List.findSome?_eq_some_iff.mp h
  have hsorted := pairwise_sortByKeyDesc key l
  rw [hsplit, List.pairwise_append, List.pairwise_cons] at hsorted
  have hmem : ∀ b, b ∈ l ↔ b ∈ front ++ a :: rest := by
    intro b
    rw [← hsplit]
    exact mem_sortByKeyDesc.symm
  refine ⟨a, ha, (hmem a).mpr (by simp), by simp [ha], fun b hb hkind => ?_⟩
  obtain hb | hb := List.mem_append.mp ((hmem b).mp hb)
  · rw [hfront b hb] at hkind
    cases hkind
  · obtain rfl | hb := List.mem_cons.mp hb
    · exact le_rfl
    · exact hsorted.2.1.1 b hb

/-- **Every best element can be found.** It is, when it stands at the front of the list. -/
theorem findSome?_sortByKeyDesc_cons (ha : g a = some r)
    (hbest : ∀ b ∈ l, (g b).isSome = true → key b ≤ key a) :
    (sortByKeyDesc key (a :: l)).findSome? g = some r := by
  rw [sortByKeyDesc, List.insertionSort_cons_eq_take_drop]
  refine List.findSome?_eq_some_iff.mpr ⟨_, a, _, rfl, ha, fun b hb => ?_⟩
  have hlt : ¬key b ≤ key a := by simpa using List.mem_takeWhile_imp hb
  have hmem : b ∈ l := (List.mem_insertionSort _).mp ((List.takeWhile_sublist _).subset hb)
  by_contra hsome
  exact hlt (hbest b hmem (Option.isSome_iff_ne_none.mpr hsome))

end XtpRs.Lib
