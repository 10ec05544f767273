import XtpRs.Lib.Atomic

/-!
# A program that runs alone

A program over atomic cells from its first operation to its last, with no other one in between. Each
value it takes from outside is the same, as when one reading of a clock serves a whole call. What it
does then is a function of the cells.

## Main definitions

* `Prog.exec`: the result of a program and the cells it leaves; `none` when it ends in a fault.
* `Prog.Touches`: the cells that a program may read or write.

## Main results

* `Prog.exec_bind` and its companions: the program is computed operation by operation.
* `Prog.Touches.exec_eq`: a program leaves all other cells as they are.
* `Prog.Safe.exec`: a safe program ends, and keeps the invariant.
* `Pool.reachable_call`: to run a call alone is one of the interleavings.
-/

namespace XtpRs.Lib

variable {C : Type} {V : C → Type} {ι α β : Type}

namespace Prog

/-- All operations of the program are on cells in `S`. -/
def Touches (S : C → Prop) : Prog V ι α → Prop
  | ret _ => True
  | fault => True
  | atomic c _ k => S c ∧ ∀ v, (k v).Touches S
  | input k => ∀ x, (k x).Touches S

namespace Touches

variable {S : C → Prop} {c : C}

theorem load (h : S c := by rfl) : (load c : Prog V ι (V c)).Touches S := ⟨h, fun _ => trivial⟩

theorem store {v : V c} (h : S c := by rfl) : (store c v : Prog V ι Unit).Touches S :=
  ⟨h, fun _ => trivial⟩

theorem swap {v : V c} (h : S c := by rfl) : (swap c v : Prog V ι (V c)).Touches S :=
  ⟨h, fun _ => trivial⟩

theorem fetchModify {f : V c → V c} (h : S c := by rfl) :
    (fetchModify c f : Prog V ι (V c)).Touches S :=
  ⟨h, fun _ => trivial⟩

theorem compareExchange [DecidableEq (V c)] {expected new : V c} (h : S c := by rfl) :
    (compareExchange c expected new : Prog V ι Bool).Touches S :=
  ⟨h, fun _ => trivial⟩

theorem bind {p : Prog V ι β} {g : β → Prog V ι α} (hp : p.Touches S)
    (hg : ∀ b, (g b).Touches S) : (p >>= g).Touches S := by
  change (p.bind g).Touches S
  induction p with
  | ret b => exact hg b
  | fault => exact hp
  | atomic c f k ih => exact ⟨hp.1, fun v => ih v (hp.2 v)⟩
  | input k ih => exact fun x => ih x (hp x)

theorem ite {p : Prop} [Decidable p] {q r : Prog V ι α} (hq : q.Touches S) (hr : r.Touches S) :
    (if p then q else r).Touches S := by
  split_ifs
  · exact hq
  · exact hr

theorem add (a b : UInt32) : (add a b : Prog V ι UInt32).Touches S := .ite trivial trivial

theorem mul (a b : UInt32) : (mul a b : Prog V ι UInt32).Touches S := .ite trivial trivial

end Touches

variable [DecidableEq C]

/-- The program alone on the cells `mem`, with the value `x` whenever it takes one from outside. -/
def exec (x : ι) : Prog V ι α → (∀ c, V c) → Option (α × ∀ c, V c)
  | ret a, mem => some (a, mem)
  | fault, _ => none
  | atomic c f k, mem => (k (mem c)).exec x (Function.update mem c (f (mem c)))
  | input k, mem => (k x).exec x mem

variable {x : ι} {mem : ∀ c, V c} {c : C}

@[simp] theorem exec_pure (a : α) : (pure a : Prog V ι α).exec x mem = some (a, mem) := rfl

@[simp] theorem exec_bind (p : Prog V ι β) (g : β → Prog V ι α) :
    (p >>= g).exec x mem = (p.exec x mem).bind fun r => (g r.1).exec x r.2 := by
  change (p.bind g).exec x mem = _
  induction p generalizing mem with
  | ret b => rfl
  | fault => rfl
  | atomic c f k ih => exact ih (mem c)
  | input k ih => exact ih x

@[simp] theorem exec_load : (load c : Prog V ι (V c)).exec x mem = some (mem c, mem) := by
  change some (mem c, Function.update mem c (mem c)) = _
  rw [Function.update_eq_self]

@[simp] theorem exec_store (v : V c) :
    (store c v : Prog V ι Unit).exec x mem = some ((), Function.update mem c v) := rfl

@[simp] theorem exec_swap (v : V c) :
    (swap c v : Prog V ι (V c)).exec x mem = some (mem c, Function.update mem c v) := rfl

@[simp] theorem exec_fetchModify (f : V c → V c) :
    (fetchModify c f : Prog V ι (V c)).exec x mem =
      some (mem c, Function.update mem c (f (mem c))) := rfl

@[simp] theorem exec_ask : (ask : Prog V ι ι).exec x mem = some (x, mem) := rfl

theorem exec_add {a b : UInt32} (h : a.toNat + b.toNat < UInt32.size) :
    (add a b : Prog V ι UInt32).exec x mem = some (a + b, mem) := by
  rw [add, if_pos h]
  rfl

theorem exec_sub {a b : UInt32} (h : b ≤ a) :
    (sub a b : Prog V ι UInt32).exec x mem = some (a - b, mem) := by
  rw [sub, if_pos h]
  rfl

theorem exec_mul {a b : UInt32} (h : a.toNat * b.toNat < UInt32.size) :
    (mul a b : Prog V ι UInt32).exec x mem = some (a * b, mem) := by
  rw [mul, if_pos h]
  rfl

/-- A loop runs its body for the first element and then goes on. -/
theorem exec_forM_cons (b : β) (l : List β) (g : β → Prog V ι PUnit) :
    ((b :: l).forM g).exec x mem = ((g b).exec x mem).bind fun r => (l.forM g).exec x r.2 :=
  exec_bind (g b) fun _ => l.forM g

/-- The other cells keep their values. -/
theorem Touches.exec_eq {S : C → Prop} {p : Prog V ι α} {a : α} {mem' : ∀ c, V c} (hp : p.Touches S)
    (h : p.exec x mem = some (a, mem')) (hc : ¬S c) : mem' c = mem c := by
  induction p generalizing mem with
  | ret b =>
    obtain ⟨-, rfl⟩ := Prod.mk.inj (Option.some.inj h)
    rfl
  | fault => cases h
  | atomic d f k ih =>
    have hne : c ≠ d := fun heq => hc (heq ▸ hp.1)
    rw [ih (mem d) (hp.2 _) h, Function.update_of_ne hne]
  | input k ih => exact ih x (hp x) h

/-- A safe program that runs alone on cells within the invariant ends, in a result that meets the
condition and in cells within the invariant. -/
theorem Safe.exec {I : ∀ c, V c → Prop} {post : α → Prop} {p : Prog V ι α} (h : p.Safe I post)
    (hmem : ∀ c, I c (mem c)) (x : ι) :
    ∃ a mem', p.exec x mem = some (a, mem') ∧ post a ∧ ∀ c, I c (mem' c) := by
  induction p generalizing mem with
  | ret a => exact ⟨a, mem, rfl, h, hmem⟩
  | fault => exact h.elim
  | atomic c f k ih =>
    obtain ⟨hf, hk⟩ := h _ (hmem c)
    refine ih (mem c) hk fun c' => ?_
    rcases eq_or_ne c' c with rfl | hne
    · rwa [Function.update_self]
    · rw [Function.update_of_ne hne]
      exact hmem c'
  | input k ih => exact ih x (h x) hmem

end Prog

namespace Pool

variable [DecidableEq C] {κ : Type} {body : κ → Prog V ι α} {s : Pool V ι κ α} {k : κ} {x : ι}
  {a : α} {mem : ∀ c, V c}

/-- The next operation of the call that was made last. -/
theorem step_advance_last {mem mem' : ∀ c, V c} {threads : List (κ × Prog V ι α)}
    {p p' : Prog V ι α} (h : p.next mem x = some (mem', p')) :
    Pool.step body { mem, threads := threads ++ [(k, p)] } (.advance threads.length x) =
      some { mem := mem', threads := threads ++ [(k, p')] } := by
  simp [Pool.step, h]

theorem reachable_advance_last {mem mem' : ∀ c, V c} {threads : List (κ × Prog V ι α)}
    {p p' : Prog V ι α}
    (hs : Reachable (Pool.step body) s { mem, threads := threads ++ [(k, p)] }) (x : ι)
    (h : p.next mem x = some (mem', p')) :
    Reachable (Pool.step body) s { mem := mem', threads := threads ++ [(k, p')] } :=
  hs.tail trivial (step_advance_last h (x := x))

/-- A call of a pool that runs alone to its end: its result and the cells it leaves are reached in
one of the interleavings. -/
theorem reachable_exec {i : ℕ} {p : Prog V ι α} (hi : s.threads[i]? = some (k, p))
    (h : p.exec x s.mem = some (a, mem)) :
    Reachable (Pool.step body) s { mem, threads := s.threads.set i (k, .ret a) } := by
  obtain ⟨hlt, hget⟩ := List.getElem?_eq_some_iff.mp hi
  induction p generalizing s with
  | ret b =>
    obtain ⟨rfl, rfl⟩ := Prod.mk.inj (Option.some.inj h)
    have hset : s.threads.set i (k, .ret b) = s.threads := by
      rw [← hget]
      exact List.set_getElem_self hlt
    rw [hset]
    exact .refl
  | fault => cases h
  | atomic c f g ih =>
    let t : Pool V ι κ α := {
      mem := Function.update s.mem c (f (s.mem c))
      threads := s.threads.set i (k, g (s.mem c)) }
    have hstep : s.step body (.advance i x) = some t := by
      simp only [Pool.step, hi]
      rfl
    have hlt' : i < t.threads.length := by rwa [List.length_set]
    have hget' : t.threads[i] = (k, g (s.mem c)) := List.getElem_set_self hlt'
    have hrest := ih (s.mem c) (s := t) (List.getElem?_eq_some_iff.mpr ⟨hlt', hget'⟩) h hlt' hget'
    rw [List.set_set] at hrest
    exact .head trivial hstep hrest
  | input g ih =>
    let t : Pool V ι κ α := { mem := s.mem, threads := s.threads.set i (k, g x) }
    have hstep : s.step body (.advance i x) = some t := by
      simp only [Pool.step, hi]
      rfl
    have hlt' : i < t.threads.length := by rwa [List.length_set]
    have hget' : t.threads[i] = (k, g x) := List.getElem_set_self hlt'
    have hrest := ih x (s := t) (List.getElem?_eq_some_iff.mpr ⟨hlt', hget'⟩) h hlt' hget'
    rw [List.set_set] at hrest
    exact .head trivial hstep hrest

/-- A new call that runs alone to its end is one of the interleavings. -/
theorem reachable_call (h : (body k).exec x s.mem = some (a, mem)) :
    ∃ t, Reachable (Pool.step body) s t ∧ t.mem = mem := by
  let s' : Pool V ι κ α := { s with threads := s.threads ++ [(k, body k)] }
  have hcall : s.step body (.call k) = some s' := rfl
  have hi : s'.threads[s.threads.length]? = some (k, body k) := List.getElem?_concat_length
  exact ⟨_, .head trivial hcall (reachable_exec hi h), rfl⟩

end Pool

end XtpRs.Lib
