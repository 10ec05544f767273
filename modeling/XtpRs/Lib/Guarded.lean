import XtpRs.Lib.Buffer

/-!
# Computations with checked accesses

A program that accesses a buffer at a position outside of it, or adds two machine words to a number
that is none, does not go on. `Guarded` computations have no result then, nor have they one after
too many rounds of a loop; otherwise they return a value or fail as a computation in `Except` does.
`Agrees` compares the two, step by step: a guarded computation that agrees with one in `Except`
makes no access out of bounds, no sum out of range, and returns.

## Main definitions

* `Guarded`, `getAt`, `sliceAt`, `setAt`, `copyAt`, `sumBelow`, `difference`.
* `Agrees`: the guarded computation has the given result.
* `InPlace`, `InPlace.Leaves`: the same with a state that is changed in place.

## Main results

* `Agrees.bind`, `Agrees.getAt`, `Agrees.sliceAt`, `Agrees.setAt`, `Agrees.copyAt`,
  `Agrees.sumBelow`, `Agrees.difference`: the steps of a computation.
* `Agrees.run_bind`: a guarded computation within one that has a state.
-/

namespace XtpRs.Lib

variable {ε α β γ : Type}

/-- A computation that stops without a result at an access out of bounds. -/
abbrev Guarded (ε : Type) := ExceptT ε Option

namespace Guarded

/-- No result. -/
def stuck : Guarded ε α := ExceptT.mk none

/-- A computation without accesses. -/
def lift (r : Except ε α) : Guarded ε α := ExceptT.mk (some r)

/-- The element at a position of the buffer. -/
def getAt (buf : List γ) (i : ℕ) : Guarded ε γ :=
  match buf[i]? with
  | some a => pure a
  | none => stuck

/-- The elements between two positions of the buffer. -/
def sliceAt (buf : List γ) (a b : ℕ) : Guarded ε (List γ) :=
  if a ≤ b ∧ b ≤ buf.length then pure (slice buf a b) else stuck

/-- The buffer with the element at a position replaced. -/
def setAt (buf : List γ) (i : ℕ) (a : γ) : Guarded ε (List γ) :=
  if i < buf.length then pure (buf.set i a) else stuck

/-- The buffer with the elements between two positions replaced by as many others. -/
def copyAt (buf : List γ) (a b : ℕ) (data : List γ) : Guarded ε (List γ) :=
  if a ≤ b ∧ b ≤ buf.length ∧ data.length = b - a then pure (overwrite buf a data) else stuck

/-- The sum of two machine words; `stop` is the first number that is none. -/
def sumBelow (stop a b : ℕ) : Guarded ε ℕ :=
  if a + b < stop then pure (a + b) else stuck

/-- The difference of two machine words. -/
def difference (a b : ℕ) : Guarded ε ℕ :=
  if b ≤ a then pure (a - b) else stuck

/-- The guarded computation has the given result. -/
def Agrees (g : Guarded ε α) (r : Except ε α) : Prop :=
  g.run = some r

namespace Agrees

variable {g : Guarded ε α} {r : Except ε α}

theorem lift (r : Except ε α) : Agrees (lift r) r := rfl

theorem ok (a : α) : Agrees (pure a : Guarded ε α) (.ok a) := rfl

theorem error (e : ε) : Agrees (throw e : Guarded ε α) (.error e) := rfl

theorem bind {f : α → Guarded ε β} {f' : α → Except ε β} (h : Agrees g r)
    (hf : ∀ a, r = .ok a → Agrees (f a) (f' a)) : Agrees (g >>= f) (r >>= f') := by
  obtain rfl : g = Guarded.lift r := h
  cases r with
  | error e => rfl
  | ok a => exact hf a rfl

/-- A first step that returns a value. -/
theorem ok_bind {f : α → Guarded ε β} {a : α} {r : Except ε β} (h : Agrees g (.ok a))
    (hf : Agrees (f a) r) : Agrees (g >>= f) r := by
  obtain rfl : g = Guarded.lift (.ok a) := h
  exact hf

/-- A first step that fails. -/
theorem error_bind {f : α → Guarded ε β} {e : ε} (h : Agrees g (.error e)) :
    Agrees (g >>= f) (.error e) := by
  obtain rfl : g = Guarded.lift (.error e) := h
  rfl

/-- The errors of a computation translated. -/
theorem adapt {ε' : Type} (h : Agrees g r) (f : ε → ε') :
    Agrees (ExceptT.adapt f g) (r.mapError f) := by
  obtain rfl : g = Guarded.lift r := h
  rfl

theorem ite {c : Prop} [Decidable c] {g' : Guarded ε α} {r' : Except ε α} (h : c → Agrees g r)
    (h' : ¬c → Agrees g' r') : Agrees (if c then g else g') (if c then r else r') := by
  split_ifs with hc
  · exact h hc
  · exact h' hc

variable {buf : List γ}

/-- An access within the buffer. -/
theorem getAt {f : γ → Guarded ε α} {i : ℕ} (d : γ) (hi : i < buf.length)
    (h : Agrees (f (buf.getD i d)) r) : Agrees (getAt buf i >>= f) r := by
  rw [List.getD_eq_getElem _ _ hi] at h
  rw [Guarded.getAt, List.getElem?_eq_getElem hi]
  exact h

theorem sliceAt_ok {a b : ℕ} (hab : a ≤ b) (hb : b ≤ buf.length) :
    Agrees (Guarded.sliceAt buf a b : Guarded ε (List γ)) (.ok (slice buf a b)) := by
  rw [Guarded.sliceAt, if_pos ⟨hab, hb⟩]
  exact ok _

/-- A slice within the buffer. -/
theorem sliceAt {f : List γ → Guarded ε α} {a b : ℕ} (hab : a ≤ b) (hb : b ≤ buf.length)
    (h : Agrees (f (slice buf a b)) r) : Agrees (sliceAt buf a b >>= f) r :=
  ok_bind (sliceAt_ok hab hb) h

/-- A replacement within the buffer. -/
theorem setAt {f : List γ → Guarded ε α} {i : ℕ} {a : γ} (hi : i < buf.length)
    (h : Agrees (f (buf.set i a)) r) : Agrees (setAt buf i a >>= f) r := by
  rw [Guarded.setAt, if_pos hi]
  exact h

/-- A copy within the buffer. -/
theorem copyAt {f : List γ → Guarded ε α} {a b : ℕ} {data : List γ} (hb : b ≤ buf.length)
    (hab : a + data.length = b) (h : Agrees (f (overwrite buf a data)) r) :
    Agrees (copyAt buf a b data >>= f) r := by
  rw [Guarded.copyAt, if_pos (by omega)]
  exact h

theorem sumBelow_ok {stop a b : ℕ} (hab : a + b < stop) :
    Agrees (Guarded.sumBelow stop a b : Guarded ε ℕ) (.ok (a + b)) := by
  rw [Guarded.sumBelow, if_pos hab]
  exact ok _

/-- A sum in range. -/
theorem sumBelow {f : ℕ → Guarded ε α} {stop a b : ℕ} (hab : a + b < stop)
    (h : Agrees (f (a + b)) r) : Agrees (sumBelow stop a b >>= f) r :=
  ok_bind (sumBelow_ok hab) h

/-- A difference in range. -/
theorem difference {f : ℕ → Guarded ε α} {a b : ℕ} (hab : b ≤ a) (h : Agrees (f (a - b)) r) :
    Agrees (difference a b >>= f) r := by
  rw [Guarded.difference, if_pos hab]
  exact h

/-- What follows in a computation that has a state, and its own way to fail. -/
theorem run_bind (h : Agrees g r) (f : Except ε α → Option β) : (g.run >>= f) = f r := by
  obtain rfl : g = Guarded.lift r := h
  rfl

end Agrees

end Guarded

/-! ### A state changed in place -/

/-- A guarded computation with a state that it changes in place: a failure leaves the state as it is
at that point. -/
abbrev InPlace (σ ε : Type) := ExceptT ε (StateT σ Option)

namespace InPlace

open Guarded

variable {σ : Type}

/-- A guarded computation that does not touch the state. -/
def call (g : Guarded ε α) : InPlace σ ε α :=
  ExceptT.mk fun s => g.run.map fun r => (r, s)

/-- From the state `s` the computation has the result `r` and leaves the state `t`. -/
def Leaves (p : InPlace σ ε α) (s : σ) (r : Except ε α) (t : σ) : Prop :=
  p.run.run s = some (r, t)

namespace Leaves

variable {p : InPlace σ ε α} {r : Except ε β} {s t : σ}

theorem ok (a : α) (s : σ) : Leaves (pure a : InPlace σ ε α) s (.ok a) s := rfl

theorem error (e : ε) (s : σ) : Leaves (throw e : InPlace σ ε α) s (.error e) s := rfl

/-- Reading the state. -/
theorem get {f : σ → InPlace σ ε β} (h : Leaves (f s) s r t) : Leaves (get >>= f) s r t := h

/-- Changing the state. -/
theorem set {f : PUnit → InPlace σ ε β} {u : σ} (h : Leaves (f ⟨⟩) u r t) :
    Leaves (set u >>= f) s r t := h

/-- A step that does not touch the state and returns a value. -/
theorem call {g : Guarded ε α} {a : α} {f : α → InPlace σ ε β} (hg : Agrees g (.ok a))
    (h : Leaves (f a) s r t) : Leaves (call g >>= f) s r t := by
  obtain rfl : g = Guarded.lift (.ok a) := hg
  exact h

end Leaves

end InPlace

end XtpRs.Lib
