import Mathlib

/-!
# Extended regular expressions

Bracket expressions, optional parts, fixed texts and repeated classes, as regular expressions. The
expression `^...$` holds for a line if the whole line is in the language of what stands between.

## Main results

* `mem_oneOf`, `mem_opt`, `mem_text`, `mem_star_oneOf`, `mem_atLeastOnce_oneOf`: their languages.
-/

namespace XtpRs.Lib.Ere

open RegularExpression

variable {α : Type*}

/-- `[...]`, by its characters. -/
def oneOf (l : List α) : RegularExpression α :=
  (l.map char).foldr (· + ·) 0

/-- `r?` -/
def opt (r : RegularExpression α) : RegularExpression α :=
  1 + r

/-- `r+` -/
def atLeastOnce (r : RegularExpression α) : RegularExpression α :=
  r * r.star

/-- A text that stands for itself. -/
def text (s : List α) : RegularExpression α :=
  (s.map char).foldr (· * ·) 1

variable {l s : List α} {r : RegularExpression α}

theorem mem_mul {P Q : RegularExpression α} :
    s ∈ (P * Q).matches' ↔ ∃ a ∈ P.matches', ∃ b ∈ Q.matches', s = a ++ b := by
  rw [matches'_mul, Language.mem_mul]
  simp only [eq_comm]

theorem mem_add {P Q : RegularExpression α} :
    s ∈ (P + Q).matches' ↔ s ∈ P.matches' ∨ s ∈ Q.matches' := by
  rw [matches'_add, Language.mem_add]

theorem mem_char {c : α} : s ∈ (char c).matches' ↔ s = [c] :=
  Iff.rfl

theorem mem_oneOf : s ∈ (oneOf l).matches' ↔ ∃ c ∈ l, s = [c] := by
  induction l with
  | nil => simp [oneOf, Language.notMem_zero]
  | cons d l ih =>
      have hcons : oneOf (d :: l) = char d + oneOf l := rfl
      rw [hcons, mem_add, ih, mem_char, List.exists_mem_cons_iff]

theorem mem_opt : s ∈ (opt r).matches' ↔ s = [] ∨ s ∈ r.matches' := by
  rw [opt, mem_add, matches'_epsilon, Language.mem_one]

theorem mem_text {t : List α} : s ∈ (text t).matches' ↔ s = t := by
  induction t generalizing s with
  | nil => rw [text, List.map_nil, List.foldr_nil, matches'_epsilon, Language.mem_one]
  | cons c t ih =>
      have hcons : text (c :: t) = char c * text t := rfl
      rw [hcons, mem_mul]
      constructor
      · rintro ⟨a, ha, b, hb, rfl⟩
        rw [mem_char.mp ha, ih.mp hb, List.singleton_append]
      · rintro rfl
        exact ⟨[c], mem_char.mpr rfl, t, ih.mpr rfl, rfl⟩

/-- `[...]*` -/
theorem mem_star_oneOf : s ∈ (oneOf l).star.matches' ↔ ∀ c ∈ s, c ∈ l := by
  rw [matches'_star, Language.mem_kstar]
  constructor
  · rintro ⟨L, rfl, hL⟩ c hc
    obtain ⟨w, hw, hcw⟩ := List.mem_flatten.mp hc
    obtain ⟨d, hd, rfl⟩ := mem_oneOf.mp (hL w hw)
    rwa [List.mem_singleton.mp hcw]
  · intro hs
    refine ⟨s.map fun c => [c], ?_, fun w hw => ?_⟩
    · rw [← List.flatMap_def, List.flatMap_singleton']
    · obtain ⟨c, hc, rfl⟩ := List.mem_map.mp hw
      exact mem_oneOf.mpr ⟨c, hs c hc, rfl⟩

/-- `[...]+` -/
theorem mem_atLeastOnce_oneOf : s ∈ (atLeastOnce (oneOf l)).matches' ↔ s ≠ [] ∧ ∀ c ∈ s, c ∈ l := by
  rw [atLeastOnce, mem_mul]
  constructor
  · rintro ⟨a, ha, b, hb, rfl⟩
    obtain ⟨c, hc, rfl⟩ := mem_oneOf.mp ha
    exact ⟨List.cons_ne_nil c b, List.forall_mem_cons.mpr ⟨hc, mem_star_oneOf.mp hb⟩⟩
  · rintro ⟨hne, hs⟩
    obtain ⟨c, s, rfl⟩ := List.exists_cons_of_ne_nil hne
    obtain ⟨hc, hs⟩ := List.forall_mem_cons.mp hs
    exact ⟨[c], mem_oneOf.mpr ⟨c, hc, rfl⟩, s, mem_star_oneOf.mpr hs, rfl⟩

end XtpRs.Lib.Ere
