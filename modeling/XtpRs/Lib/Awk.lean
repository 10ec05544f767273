import Mathlib

/-!
# Strings of awk

The string functions of POSIX awk that programs without regular expressions use. Positions count
from one, and zero says that there is none.

* `index s t`: the position of the first occurrence of `t` in `s`.
* `substr s m` and `substrLength s m n`: the part of `s` from position `m` on, of length `n`.
* `splitAt p s`: `split` at single separators.
* `splitRuns p s`: `split` at runs of separators, as with a regular expression `[...]+`.

## Main results

* `index_eq_zero_iff`, `eq_of_index`, `index_append`: the first occurrence splits the string.
* `splitRuns_eq_pair_iff`: the strings with two fields.
-/

namespace XtpRs.Lib.Awk

variable {α : Type*}

section Index

variable [DecidableEq α]

/-- `index(s, t)` -/
def index : List α → List α → ℕ
  | [], t => if t = [] then 1 else 0
  | c :: s, t =>
    if t <+: c :: s then 1
    else if index s t = 0 then 0 else index s t + 1

/-- `substr(s, m)` -/
def substr (s : List α) (m : ℕ) : List α :=
  s.drop (m - 1)

/-- `substr(s, m, n)` -/
def substrLength (s : List α) (m n : ℕ) : List α :=
  (substr s m).take n

variable {s t : List α}

theorem index_cons_eq_one {c : α} (h : t <+: c :: s) : index (c :: s) t = 1 := by
  rw [index, if_pos h]

theorem index_cons_of_not {c : α} (h : ¬t <+: c :: s) :
    index (c :: s) t = if index s t = 0 then 0 else index s t + 1 := by
  rw [index, if_neg h]

theorem index_eq_zero_iff (ht : t ≠ []) : index s t = 0 ↔ ¬t <:+: s := by
  induction s with
  | nil => simp [index, ht]
  | cons c s ih =>
      rw [List.infix_cons_iff, not_or, ← ih]
      by_cases h : t <+: c :: s
      · simp [index_cons_eq_one h, h]
      · rw [index_cons_of_not h]
        split_ifs with h0 <;> simp [h, h0]

/-- Before and behind an occurrence. -/
theorem eq_of_index {n : ℕ} (h : index s t = n) (hn : n ≠ 0) :
    s = substrLength s 1 (n - 1) ++ t ++ substr s (n + t.length) := by
  induction s generalizing n with
  | nil =>
      have ht : t = [] := by
        by_contra ht
        simp only [index, ht, if_false] at h
        exact hn h.symm
      simp [substrLength, substr, ht]
  | cons c s ih =>
      by_cases hp : t <+: c :: s
      · rw [index_cons_eq_one hp] at h
        subst h
        obtain ⟨r, hr⟩ := hp
        simp [substrLength, substr, ← hr]
      · rw [index_cons_of_not hp] at h
        split_ifs at h with h0
        · exact absurd h.symm hn
        · have hs := ih rfl h0
          obtain ⟨k, hk⟩ := Nat.exists_eq_succ_of_ne_zero h0
          rw [hk] at h hs
          subst h
          have hdrop : k + 1 + 1 + t.length - 1 = (k + 1 + t.length - 1) + 1 := by omega
          simp only [substrLength, substr, Nat.sub_self, List.drop_zero, Nat.add_sub_cancel,
            Nat.succ_eq_add_one, hdrop, List.take_succ_cons, List.drop_succ_cons,
            List.cons_append] at hs ⊢
          rw [← hs]

/-- The first occurrence is found. -/
theorem index_append (ht : t ≠ []) {a : List α} (hfirst : ¬t <:+: a ++ t.dropLast) (b : List α) :
    index (a ++ t ++ b) t = a.length + 1 := by
  induction a with
  | nil =>
      obtain ⟨c, s, rfl⟩ := List.exists_cons_of_ne_nil ht
      exact index_cons_eq_one (List.prefix_append _ _)
  | cons c a ih =>
      have hprefix : ¬t <+: c :: (a ++ t ++ b) := fun h => by
        refine hfirst
          (List.prefix_of_prefix_length_le h (?_ : c :: a ++ t.dropLast <+: _) ?_).isInfix
        · rw [List.append_assoc, List.cons_append, List.cons_prefix_cons,
            List.prefix_append_right_inj]
          exact ⟨rfl, (List.dropLast_prefix t).trans (List.prefix_append t b)⟩
        · simp only [List.cons_append, List.length_cons, List.length_append, List.length_dropLast]
          omega
      have hrest := ih fun h => hfirst (h.trans (List.suffix_cons c _).isInfix)
      rw [List.cons_append, List.cons_append, index_cons_of_not hprefix, hrest, if_neg (by omega),
        List.length_cons]

end Index

section Split

variable {p : α → Bool}

/-- `split(s, a, sep)` for a separator of one character: the elements of the array. -/
def splitAt (p : α → Bool) (s : List α) : List (List α) :=
  if s.isEmpty then [] else s.splitOnP p

/-- The fields from here on: `field` is what the current field has so far, and in a run of
separators the field has not begun. -/
def splitRunsLoop (p : α → Bool) : List α → Bool → List α → List (List α)
  | field, _, [] => [field]
  | field, inRun, c :: s =>
    if p c then
      if inRun then splitRunsLoop p field true s else field :: splitRunsLoop p [] true s
    else splitRunsLoop p (field ++ [c]) false s

/-- `split(s, a, /[...]+/)`: the elements of the array. -/
def splitRuns (p : α → Bool) (s : List α) : List (List α) :=
  if s.isEmpty then [] else splitRunsLoop p [] false s

theorem splitRunsLoop_of_forall {s : List α} (hs : ∀ c ∈ s, p c = false) (field : List α)
    (inRun : Bool) : splitRunsLoop p field inRun s = [field ++ s] := by
  induction s generalizing field inRun with
  | nil => simp [splitRunsLoop]
  | cons c s ih =>
      rw [splitRunsLoop, hs c List.mem_cons_self, if_neg Bool.false_ne_true,
        ih (fun d hd => hs d (List.mem_cons_of_mem _ hd)), List.append_assoc, List.singleton_append]

theorem splitRunsLoop_run {gap : List α} (hgap : ∀ c ∈ gap, p c) (field s : List α) :
    splitRunsLoop p field true (gap ++ s) = splitRunsLoop p field true s := by
  induction gap with
  | nil => rfl
  | cons c gap ih =>
      rw [List.cons_append, splitRunsLoop, if_pos (hgap c List.mem_cons_self), if_pos rfl,
        ih fun d hd => hgap d (List.mem_cons_of_mem _ hd)]

theorem splitRunsLoop_append_cons {first : List α} (hfirst : ∀ c ∈ first, p c = false) {c : α}
    (hc : p c) (field s : List α) :
    splitRunsLoop p field false (first ++ c :: s) =
      (field ++ first) :: splitRunsLoop p [] true s := by
  induction first generalizing field with
  | nil => simp [splitRunsLoop, hc]
  | cons d first ih =>
      rw [List.cons_append, splitRunsLoop, hfirst d List.mem_cons_self, if_neg Bool.false_ne_true,
        ih fun e he => hfirst e (List.mem_cons_of_mem _ he), List.append_assoc,
        List.singleton_append]

theorem splitRunsLoop_ne_nil (field : List α) (inRun : Bool) (s : List α) :
    splitRunsLoop p field inRun s ≠ [] := by
  induction s generalizing field inRun with
  | nil => simp [splitRunsLoop]
  | cons c s ih =>
      rw [splitRunsLoop]
      split_ifs
      · exact ih _ _
      · simp
      · exact ih _ _

/-- A string up to its first separator, if it has one. -/
theorem exists_first (p : α → Bool) (s : List α) :
    (∀ c ∈ s, p c = false) ∨
      ∃ first c rest, s = first ++ c :: rest ∧ (∀ d ∈ first, p d = false) ∧ p c := by
  induction s with
  | nil => simp
  | cons d s ih =>
      by_cases hd : p d
      · exact .inr ⟨[], d, s, rfl, by simp, hd⟩
      · have hd : p d = false := by simpa using hd
        obtain h | ⟨first, c, rest, rfl, hfirst, hc⟩ := ih
        · exact .inl (List.forall_mem_cons.mpr ⟨hd, h⟩)
        · exact .inr ⟨d :: first, c, rest, rfl, List.forall_mem_cons.mpr ⟨hd, hfirst⟩, hc⟩

/-- In a run of separators one field is left if no separator follows it. -/
theorem of_splitRunsLoop_eq_singleton {s last : List α}
    (h : splitRunsLoop p [] true s = [last]) :
    ∃ gap, s = gap ++ last ∧ (∀ c ∈ gap, p c) ∧ ∀ c ∈ last, p c = false := by
  induction s with
  | nil => exact ⟨[], by simpa [splitRunsLoop] using h, by simp, by simp_all [splitRunsLoop]⟩
  | cons d s ih =>
      by_cases hd : p d
      · rw [splitRunsLoop, if_pos hd, if_pos rfl] at h
        obtain ⟨gap, rfl, hgap, hlast⟩ := ih h
        exact ⟨d :: gap, rfl, List.forall_mem_cons.mpr ⟨hd, hgap⟩, hlast⟩
      · rw [splitRunsLoop, if_neg hd, List.nil_append] at h
        obtain hs | ⟨first, c, rest, rfl, hfirst, hc⟩ := exists_first p s
        · rw [splitRunsLoop_of_forall hs, List.cons.injEq] at h
          refine ⟨[], h.1, by simp, ?_⟩
          rw [← h.1]
          exact List.forall_mem_cons.mpr ⟨by simpa using hd, hs⟩
        · rw [splitRunsLoop_append_cons hfirst hc, List.cons.injEq] at h
          exact absurd h.2 (splitRunsLoop_ne_nil _ _ _)

/-- There are two fields if a string is two parts without a separator around a run of
separators. -/
theorem splitRuns_eq_pair_iff {s first last : List α} :
    splitRuns p s = [first, last] ↔
      ∃ gap, s = first ++ gap ++ last ∧ gap ≠ [] ∧ (∀ c ∈ gap, p c) ∧
        (∀ c ∈ first, p c = false) ∧ ∀ c ∈ last, p c = false := by
  constructor
  · intro h
    have hloop : splitRunsLoop p [] false s = [first, last] := by
      rw [splitRuns] at h
      split_ifs at h
      exact h
    obtain hs | ⟨f, c, rest, rfl, hf, hc⟩ := exists_first p s
    · rw [splitRunsLoop_of_forall hs] at hloop
      simp at hloop
    · rw [splitRunsLoop_append_cons hf hc, List.nil_append, List.cons.injEq] at hloop
      obtain ⟨rfl, hrest⟩ := hloop
      obtain ⟨gap, rfl, hgap, hlast⟩ := of_splitRunsLoop_eq_singleton hrest
      exact ⟨c :: gap, by simp, by simp, List.forall_mem_cons.mpr ⟨hc, hgap⟩, hf, hlast⟩
  · rintro ⟨gap, rfl, hne, hgap, hfirst, hlast⟩
    obtain ⟨c, gap, rfl⟩ := List.exists_cons_of_ne_nil hne
    obtain ⟨hc, hgap⟩ := List.forall_mem_cons.mp hgap
    rw [splitRuns, if_neg (by simp), List.append_assoc, List.cons_append,
      splitRunsLoop_append_cons hfirst hc, splitRunsLoop_run hgap, splitRunsLoop_of_forall hlast,
      List.nil_append, List.nil_append]

end Split

end XtpRs.Lib.Awk
