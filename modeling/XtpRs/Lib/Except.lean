import Mathlib

/-!
# Computations that can fail

Lists of computations in `Except`: when all of them succeed, and what they return. Then two
relations that are closed under the steps of a computation: every value it returns has a property,
and a second computation repeats its result unless that result is one given error.

## Main definitions

* `Returns`: every value returned has the property.
* `Settled`: the second result is the first, unless that is the given error.

## Main results

* `bind_eq_ok_iff`, `toOption_bind`: a computation that continues with the value of another.
* `exists_mapM_eq_ok_iff`, `mem_of_mapM_eq_ok`: a computation for each element of a list.
* `foldlM_ite_eq_ok_iff`: a loop that checks each element and then updates its state.
-/

namespace XtpRs.Lib

variable {ε α β σ : Type}

theorem bind_eq_ok_iff {x : Except ε α} {f : α → Except ε β} {b : β} :
    x >>= f = .ok b ↔ ∃ a, x = .ok a ∧ f a = .ok b := by
  cases x with
  | error e => simp [bind, Except.bind]
  | ok a => simp [bind, Except.bind]

theorem toOption_eq_some_iff {x : Except ε α} {a : α} : x.toOption = some a ↔ x = .ok a := by
  cases x with
  | error e => simp [Except.toOption]
  | ok b => simp [Except.toOption]

theorem toOption_ok (a : α) : (.ok a : Except ε α).toOption = some a := rfl

/-- The value of a computation that continues with the value of another. -/
theorem toOption_bind (x : Except ε α) (f : α → Except ε β) :
    (x >>= f).toOption = x.toOption.bind fun a => (f a).toOption := by
  cases x with
  | error e => rfl
  | ok a => rfl

theorem toOption_ite {c : Prop} [Decidable c] (x y : Except ε α) :
    (if c then x else y).toOption = if c then x.toOption else y.toOption :=
  apply_ite Except.toOption c x y

variable {f : α → Except ε β} {l : List α} {bs : List β}

theorem mapM_cons_eq_ok_iff {a : α} :
    (a :: l).mapM f = .ok bs ↔ ∃ b bs', f a = .ok b ∧ l.mapM f = .ok bs' ∧ bs = b :: bs' := by
  rw [List.mapM_cons, bind_eq_ok_iff]
  refine exists_congr fun b => ?_
  rw [bind_eq_ok_iff]
  constructor
  · rintro ⟨hb, bs', hbs, heq⟩
    exact ⟨bs', hb, hbs, (Except.ok.inj heq).symm⟩
  · rintro ⟨bs', hb, hbs, rfl⟩
    exact ⟨hb, bs', hbs, rfl⟩

theorem exists_mapM_eq_ok_iff : (∃ bs, l.mapM f = .ok bs) ↔ ∀ a ∈ l, ∃ b, f a = .ok b := by
  induction l with
  | nil => simp [pure, Except.pure]
  | cons a l ih =>
    rw [List.forall_mem_cons, ← ih]
    constructor
    · rintro ⟨bs, h⟩
      obtain ⟨b, bs', hb, hbs, -⟩ := mapM_cons_eq_ok_iff.mp h
      exact ⟨⟨b, hb⟩, bs', hbs⟩
    · rintro ⟨⟨b, hb⟩, bs, hbs⟩
      exact ⟨b :: bs, mapM_cons_eq_ok_iff.mpr ⟨b, bs, hb, hbs, rfl⟩⟩

/-- The values returned are those of the elements. -/
theorem mem_of_mapM_eq_ok (h : l.mapM f = .ok bs) {b : β} : b ∈ bs ↔ ∃ a ∈ l, f a = .ok b := by
  induction l generalizing bs with
  | nil =>
    cases h
    simp
  | cons a l ih =>
    obtain ⟨b', bs', hb', hbs, rfl⟩ := mapM_cons_eq_ok_iff.mp h
    rw [List.mem_cons, List.exists_mem_cons_iff, ih hbs, hb', Except.ok.injEq]
    exact or_congr_left eq_comm

/-- A loop that fails at the first element for which a check fails. -/
theorem foldlM_ite_eq_ok_iff {bad : α → Prop} [DecidablePred bad] {e : α → ε} {update : σ → α → σ}
    {s t : σ} :
    l.foldlM (fun s a => if bad a then (.error (e a) : Except ε σ) else .ok (update s a)) s =
        .ok t ↔
      (∀ a ∈ l, ¬bad a) ∧ t = l.foldl update s := by
  induction l generalizing s with
  | nil => simp [pure, Except.pure, eq_comm]
  | cons a l ih =>
    rw [List.foldlM_cons, bind_eq_ok_iff, List.forall_mem_cons, List.foldl_cons]
    by_cases ha : bad a
    · simp [ha]
    · simp only [ha, if_false, Except.ok.injEq, exists_eq_left', not_false_eq_true, true_and]
      exact ih

/-! ### Values returned -/

/-- A value that is returned has the property. -/
def Returns (P : α → Prop) (r : Except ε α) : Prop :=
  ∀ a, r = .ok a → P a

namespace Returns

variable {P : α → Prop} {Q : β → Prop}

theorem ok {a : α} (h : P a) : Returns P (.ok a : Except ε α) := by
  intro a' ha'
  cases ha'
  exact h

theorem error (e : ε) : Returns P (.error e : Except ε α) := by
  intro a ha
  cases ha

theorem bind {x : Except ε α} {f : α → Except ε β} (h : ∀ a, x = .ok a → Returns Q (f a)) :
    Returns Q (x >>= f) := by
  intro b hb
  obtain ⟨a, ha, hfa⟩ := bind_eq_ok_iff.mp hb
  exact h a ha b hfa

theorem ite {c : Prop} [Decidable c] {r r' : Except ε α} (h : c → Returns P r)
    (h' : ¬c → Returns P r') : Returns P (if c then r else r') := by
  split_ifs with hc
  · exact h hc
  · exact h' hc

end Returns

/-! ### Results that stay -/

/-- The second result is the first, unless the first is the error `more`. -/
def Settled (more : ε) (r r' : Except ε α) : Prop :=
  r = .error more ∨ r' = r

namespace Settled

variable {more : ε}

theorem refl (r : Except ε α) : Settled more r r := .inr rfl

theorem of_more {r' : Except ε α} : Settled more (.error more) r' := .inl rfl

theorem bind {x x' : Except ε α} {f f' : α → Except ε β} (hx : Settled more x x')
    (hf : ∀ a, x = .ok a → Settled more (f a) (f' a)) : Settled more (x >>= f) (x' >>= f') := by
  obtain rfl | rfl := hx
  · exact .inl rfl
  · cases hok : x' with
    | error e => exact refl _
    | ok a => exact hf a hok

theorem ite {c c' : Prop} [Decidable c] [Decidable c'] {r r' t t' : Except ε α} (hc : c ↔ c')
    (h : c → Settled more r r') (h' : ¬c → Settled more t t') :
    Settled more (if c then r else t) (if c' then r' else t') := by
  split_ifs with hc₁ hc₂ hc₂
  · exact h hc₁
  · exact absurd (hc.mp hc₁) hc₂
  · exact absurd (hc.mpr hc₂) hc₁
  · exact h' hc₁

end Settled

end XtpRs.Lib
