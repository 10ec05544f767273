import XtpRs.Lib.Run

/-!
# Threads over shared atomic cells

A thread is a program over typed shared cells. It touches them by single atomic operations, each on
one cell, and may stop with a fault. Threads run side by side: between two atomic operations of one
of them any number of operations of the others may come, so a value that was read may be out of date
when it is used.

An invariant that speaks of one cell at a time survives this. `Prog.Safe I post p` says that `p`,
whatever values within the invariant `I` it reads, writes only values within `I`, never faults and
ends in a result that meets `post`. It is proved of each program on its own; a pool of safe programs
then keeps the invariant in every interleaving.

## Main definitions

* `Prog`: a program of atomic operations; `Prog.load`, `Prog.store`, `Prog.swap`,
  `Prog.fetchModify`, `Prog.compareExchange`, and the checked `Prog.add`, `Prog.sub`, `Prog.mul` of
  `u32`.
* `Prog.Safe`: the rely condition of one program.
* `Pool`, `Pool.step`: calls that run side by side, and one atomic operation of one of them.

## Main results

* `Prog.Safe.bind` and its companions: the rules by which a program is shown safe.
* `Pool.inv_of_reachable`: a pool of safe programs keeps the invariant in every interleaving.
-/

namespace XtpRs.Lib

/-- A program over the cells `C`, of values `V`. The operation `atomic c f k` replaces the value `v`
of the cell `c` by `f v` and goes on with `k v`; `input k` takes a value from outside, such as the
reading of a clock. -/
inductive Prog {C : Type} (V : C → Type) (ι : Type) (α : Type) : Type
  | ret (a : α)
  | fault
  | atomic (c : C) (f : V c → V c) (k : V c → Prog V ι α)
  | input (k : ι → Prog V ι α)

namespace Prog

variable {C : Type} {V : C → Type} {ι α β : Type}

/-- One program after the other. -/
protected def bind : Prog V ι α → (α → Prog V ι β) → Prog V ι β
  | ret a, g => g a
  | fault, _ => fault
  | atomic c f k, g => atomic c f fun v => (k v).bind g
  | input k, g => input fun x => (k x).bind g

instance : Monad (Prog V ι) where
  pure := ret
  bind := Prog.bind

/-- The value of a cell. -/
def load (c : C) : Prog V ι (V c) := atomic c id ret

/-- Writes a cell. -/
def store (c : C) (v : V c) : Prog V ι Unit := atomic c (fun _ => v) fun _ => ret ()

/-- Writes a cell and returns the value before. -/
def swap (c : C) (v : V c) : Prog V ι (V c) := atomic c (fun _ => v) ret

/-- Changes a cell and returns the value before. -/
def fetchModify (c : C) (f : V c → V c) : Prog V ι (V c) := atomic c f ret

/-- Writes a cell if it holds the expected value, and returns whether it did. -/
def compareExchange (c : C) [DecidableEq (V c)] (expected new : V c) : Prog V ι Bool :=
  atomic c (fun v => if v = expected then new else v) fun v => ret (decide (v = expected))

/-- A value from outside. -/
def ask : Prog V ι ι := input ret

/-- `a + b`, which must not overflow. -/
def add (a b : UInt32) : Prog V ι UInt32 :=
  if a.toNat + b.toNat < UInt32.size then ret (a + b) else fault

/-- `a - b`, which must not underflow. -/
def sub (a b : UInt32) : Prog V ι UInt32 :=
  if b ≤ a then ret (a - b) else fault

/-- `a * b`, which must not overflow. -/
def mul (a b : UInt32) : Prog V ι UInt32 :=
  if a.toNat * b.toNat < UInt32.size then ret (a * b) else fault

/-- The result of a program that has ended. -/
def result : Prog V ι α → Option α
  | ret a => some a
  | _ => none

/-- With all values it reads within the invariant `I`, the program writes only values within `I`,
does not fault, and ends in a result that meets `post`. -/
def Safe (I : ∀ c, V c → Prop) (post : α → Prop) : Prog V ι α → Prop
  | ret a => post a
  | fault => False
  | atomic c f k => ∀ v, I c v → I c (f v) ∧ (k v).Safe I post
  | input k => ∀ x, (k x).Safe I post

namespace Safe

variable {I : ∀ c, V c → Prop} {post : α → Prop} {c : C}

theorem pure {a : α} (h : post a) : (Pure.pure a : Prog V ι α).Safe I post := h

/-- A program is safe if its first part ends only in results from which its second part is. -/
theorem bind {p : Prog V ι β} {g : β → Prog V ι α} (h : p.Safe I fun b => (g b).Safe I post) :
    (p >>= g).Safe I post := by
  change (p.bind g).Safe I post
  induction p with
  | ret b => exact h
  | fault => exact h
  | atomic c f k ih =>
    intro v hv
    obtain ⟨hf, hk⟩ := h v hv
    exact ⟨hf, ih v hk⟩
  | input k ih =>
    intro x
    exact ih x (h x)

theorem mono {p : Prog V ι α} {post' : α → Prop} (h : p.Safe I post)
    (hpost : ∀ a, post a → post' a) : p.Safe I post' := by
  induction p with
  | ret a => exact hpost a h
  | fault => exact h
  | atomic c f k ih =>
    intro v hv
    obtain ⟨hf, hk⟩ := h v hv
    exact ⟨hf, ih v hk⟩
  | input k ih =>
    intro x
    exact ih x (h x)

theorem result {p : Prog V ι α} {a : α} (h : p.Safe I post) (ha : p.result = some a) : post a := by
  cases p with
  | ret b => exact Option.some.inj ha ▸ h
  | fault => exact h.elim
  | atomic c f k => cases ha
  | input k => cases ha

/-- The first part of a program returns anything and keeps the invariant. -/
theorem seq {p : Prog V ι β} {g : β → Prog V ι α} (hp : p.Safe I fun _ => True)
    (hg : ∀ b, (g b).Safe I post) : (p >>= g).Safe I post :=
  bind (hp.mono fun b _ => hg b)

theorem ite {p : Prop} [Decidable p] {x y : Prog V ι α} (hx : p → x.Safe I post)
    (hy : ¬p → y.Safe I post) : (if p then x else y).Safe I post := by
  split_ifs with h
  · exact hx h
  · exact hy h

theorem load {post : V c → Prop} (h : ∀ v, I c v → post v) :
    (Prog.load c : Prog V ι (V c)).Safe I post :=
  fun v hv => ⟨hv, h v hv⟩

theorem store {v : V c} {post : Unit → Prop} (hv : I c v) (h : post ()) :
    (Prog.store c v : Prog V ι Unit).Safe I post :=
  fun _ _ => ⟨hv, h⟩

theorem swap {v : V c} {post : V c → Prop} (hv : I c v) (h : ∀ old, I c old → post old) :
    (Prog.swap c v : Prog V ι (V c)).Safe I post :=
  fun old hold => ⟨hv, h old hold⟩

theorem fetchModify {f : V c → V c} {post : V c → Prop} (hf : ∀ v, I c v → I c (f v))
    (h : ∀ old, I c old → post old) : (Prog.fetchModify c f : Prog V ι (V c)).Safe I post :=
  fun old hold => ⟨hf old hold, h old hold⟩

theorem compareExchange [DecidableEq (V c)] {expected new : V c} {post : Bool → Prop}
    (hnew : I c new) (h : ∀ b, post b) :
    (Prog.compareExchange c expected new : Prog V ι Bool).Safe I post := by
  intro v hv
  refine ⟨?_, h _⟩
  change I c (if v = expected then new else v)
  split_ifs
  · exact hnew
  · exact hv

theorem ask {post : ι → Prop} (h : ∀ x, post x) : (Prog.ask : Prog V ι ι).Safe I post :=
  fun x => h x

theorem add {a b : UInt32} {post : UInt32 → Prop} (hlt : a.toNat + b.toNat < UInt32.size)
    (h : ∀ r : UInt32, r.toNat = a.toNat + b.toNat → post r) :
    (Prog.add a b : Prog V ι UInt32).Safe I post := by
  unfold Prog.add
  rw [if_pos hlt]
  exact h _ (by rw [UInt32.toNat_add, Nat.mod_eq_of_lt hlt])

theorem sub {a b : UInt32} {post : UInt32 → Prop} (hle : b.toNat ≤ a.toNat)
    (h : ∀ r : UInt32, r.toNat = a.toNat - b.toNat → post r) :
    (Prog.sub a b : Prog V ι UInt32).Safe I post := by
  have hle' : b ≤ a := UInt32.le_iff_toNat_le.mpr hle
  unfold Prog.sub
  rw [if_pos hle']
  exact h _ (UInt32.toNat_sub_of_le a b hle')

theorem mul {a b : UInt32} {post : UInt32 → Prop} (hlt : a.toNat * b.toNat < UInt32.size)
    (h : ∀ r : UInt32, r.toNat = a.toNat * b.toNat → post r) :
    (Prog.mul a b : Prog V ι UInt32).Safe I post := by
  unfold Prog.mul
  rw [if_pos hlt]
  exact h _ (by rw [UInt32.toNat_mul, Nat.mod_eq_of_lt hlt])

/-- A loop whose body keeps the invariant keeps it. -/
theorem forM {l : List β} {g : β → Prog V ι PUnit} (h : ∀ b ∈ l, (g b).Safe I fun _ => True) :
    (l.forM g).Safe I fun _ => True := by
  induction l with
  | nil => exact pure trivial
  | cons b l ih =>
    have hrest : (l.forM g).Safe I fun _ => True :=
      ih fun b' hb' => h b' (List.mem_cons_of_mem b hb')
    exact seq (h b List.mem_cons_self) fun _ => hrest

/-- A loop that collects the results of its body, which keeps the invariant. -/
theorem mapM {l : List β} {g : β → Prog V ι α} (h : ∀ b ∈ l, (g b).Safe I fun _ => True) :
    (l.mapM' g).Safe I fun _ => True := by
  induction l with
  | nil => exact pure trivial
  | cons b l ih =>
    have hrest : (l.mapM' g).Safe I fun _ => True :=
      ih fun b' hb' => h b' (List.mem_cons_of_mem b hb')
    exact seq (h b List.mem_cons_self) fun _ => seq hrest fun _ => pure trivial

end Safe

/-- The next operation of a program on the cells `mem`, with the value `x` when it takes one from
outside; `none` when the program has ended. -/
def next [DecidableEq C] (mem : ∀ c, V c) (x : ι) : Prog V ι α → Option ((∀ c, V c) × Prog V ι α)
  | ret _ => none
  | fault => none
  | atomic c f k => some (Function.update mem c (f (mem c)), k (mem c))
  | input k => some (mem, k x)

/-- One operation of a safe program keeps the invariant, and what remains of it is safe. -/
theorem Safe.next [DecidableEq C] {I : ∀ c, V c → Prop} {post : α → Prop} {mem mem' : ∀ c, V c}
    {p p' : Prog V ι α} {x : ι} (hp : p.Safe I post) (hmem : ∀ c, I c (mem c))
    (h : p.next mem x = some (mem', p')) : (∀ c, I c (mem' c)) ∧ p'.Safe I post := by
  cases p with
  | ret a => simp [Prog.next] at h
  | fault => simp [Prog.next] at h
  | atomic c f k =>
    simp only [Prog.next, Option.some.injEq, Prod.mk.injEq] at h
    obtain ⟨rfl, rfl⟩ := h
    obtain ⟨hf, hk⟩ := hp _ (hmem c)
    refine ⟨fun c' => ?_, hk⟩
    rcases eq_or_ne c' c with rfl | hne
    · rw [Function.update_self]
      exact hf
    · rw [Function.update_of_ne hne]
      exact hmem c'
  | input k =>
    simp only [Prog.next, Option.some.injEq, Prod.mk.injEq] at h
    obtain ⟨rfl, rfl⟩ := h
    exact ⟨hmem, hp x⟩

end Prog

/-- Shared cells, and the calls made so far with what each of them has left to do. -/
structure Pool {C : Type} (V : C → Type) (ι κ α : Type) where
  mem : ∀ c, V c
  threads : List (κ × Prog V ι α)

namespace Pool

/-- What the scheduler may do: begin a call, or let one of the calls make its next operation. -/
inductive Action (ι κ : Type)
  | call (k : κ)
  | advance (thread : ℕ) (x : ι)

variable {C : Type} [DecidableEq C] {V : C → Type} {ι κ α : Type}

/-- One action of the scheduler. -/
def step (body : κ → Prog V ι α) (s : Pool V ι κ α) : Action ι κ → Option (Pool V ι κ α)
  | .call k => some { s with threads := s.threads ++ [(k, body k)] }
  | .advance i x => do
    let (k, p) ← s.threads[i]?
    let (mem, p) ← p.next s.mem x
    return { mem, threads := s.threads.set i (k, p) }

/-- The cells are within the invariant, and every call that was made is safe in what remains of
it. -/
structure Inv (I : ∀ c, V c → Prop) (post : κ → α → Prop) (s : Pool V ι κ α) : Prop where
  mem : ∀ c, I c (s.mem c)
  threads : ∀ t ∈ s.threads, t.2.Safe I (post t.1)

variable {I : ∀ c, V c → Prop} {post : κ → α → Prop} {body : κ → Prog V ι α} {s t : Pool V ι κ α}

theorem Inv.step {a : Action ι κ} (hbody : ∀ k, (body k).Safe I (post k)) (hs : s.Inv I post)
    (h : s.step body a = some t) : t.Inv I post := by
  cases a with
  | call k =>
    simp only [Pool.step, Option.some.injEq] at h
    subst h
    refine ⟨hs.mem, fun th hth => ?_⟩
    rcases List.mem_append.mp hth with hold | hnew
    · exact hs.threads th hold
    · rw [List.mem_singleton.mp hnew]
      exact hbody k
  | advance i x =>
    simp only [Pool.step, Option.bind_eq_bind, Option.bind_eq_some_iff] at h
    obtain ⟨⟨k, p⟩, hi, ⟨mem', p'⟩, hnext, ht⟩ := h
    obtain rfl : _ = t := Option.some.inj ht
    have hp : p.Safe I (post k) := hs.threads _ (List.mem_of_getElem? hi)
    obtain ⟨hmem, hp'⟩ := hp.next hs.mem hnext
    refine ⟨hmem, fun th hth => ?_⟩
    rcases List.mem_or_eq_of_mem_set hth with hold | rfl
    · exact hs.threads th hold
    · exact hp'

/-- **Safe programs stay safe together.** If every call runs a safe program, the invariant holds in
every state reached by any interleaving of any calls. -/
theorem inv_of_reachable (hbody : ∀ k, (body k).Safe I (post k)) (hs : s.Inv I post)
    (h : Reachable (Pool.step body) s t) : t.Inv I post :=
  h.invariant hs fun _ _ _ hi _ hstep => hi.step hbody hstep

end Pool

end XtpRs.Lib
