import XtpRs.Lib.Sequential

/-!
# Programs that are safe under a condition on their operations

Some programs keep an invariant only as long as their operations meet a condition: that a value they
have collected is small, or that they never come to a certain part. The condition is on what a
program has left to do and on the cells at that moment, so it can speak of the values that the
program has read before and carries along.

`Prog.SafeWhile I G post p` says that `p` keeps the invariant `I`, and ends in a result that meets
`post`, as long as each of its operations meets `G` when it is made. The rules are those of
`Prog.Safe`. A pool of such programs keeps the invariant in every interleaving in which the
operations meet their conditions.

## Main definitions

* `Prog.Cond`: a condition on the next operation of a program.
* `Prog.SafeWhile`: safe as long as the operations meet a condition.
* `Prog.Writes`: the cells that a program may change.
* `Pool.InvWhile`: the invariant of a pool.

## Main results

* `Prog.Safe.of_writes`: a program keeps what is said of cells it does not change.
* `Prog.SafeWhile.bind` and its companions: the rules.
* `Pool.InvWhile.step`: a step of the pool.
-/

namespace XtpRs.Lib

variable {C : Type} {V : C → Type} {ι α β γ : Type}

namespace Prog

theorem bind_assoc (p : Prog V ι α) (f : α → Prog V ι β) (g : β → Prog V ι γ) :
    (p >>= f) >>= g = p >>= fun a => f a >>= g := by
  change (p.bind f).bind g = p.bind fun a => (f a).bind g
  induction p with
  | ret a => rfl
  | fault => rfl
  | atomic c f' k ih => exact congrArg (atomic c f') (funext fun v => ih v)
  | input k ih => exact congrArg input (funext fun x => ih x)

theorem bind_pure (p : Prog V ι α) : p >>= pure = p := by
  change p.bind ret = p
  induction p with
  | ret a => rfl
  | fault => rfl
  | atomic c f k ih => exact congrArg (atomic c f) (funext fun v => ih v)
  | input k ih => exact congrArg input (funext fun x => ih x)

/-! ### What a program changes -/

/-- All operations of the program on cells outside of `S` leave the cell as it is. -/
def Writes (S : C → Prop) : Prog V ι α → Prop
  | ret _ => True
  | fault => True
  | atomic c f k => (S c ∨ ∀ v, f v = v) ∧ ∀ v, (k v).Writes S
  | input k => ∀ x, (k x).Writes S

theorem Touches.writes {S : C → Prop} {p : Prog V ι α} (h : p.Touches S) : p.Writes S := by
  induction p with
  | ret a => exact h
  | fault => exact h
  | atomic c f k ih => exact ⟨.inl h.1, fun v => ih v (h.2 v)⟩
  | input k ih => exact fun x => ih x (h x)

namespace Writes

variable {S : C → Prop} {c : C}

theorem load : (load c : Prog V ι (V c)).Writes S := ⟨.inr fun _ => rfl, fun _ => trivial⟩

theorem bind {p : Prog V ι β} {g : β → Prog V ι α} (hp : p.Writes S)
    (hg : ∀ b, (g b).Writes S) : (p >>= g).Writes S := by
  change (p.bind g).Writes S
  induction p with
  | ret b => exact hg b
  | fault => exact hp
  | atomic c f k ih => exact ⟨hp.1, fun v => ih v (hp.2 v)⟩
  | input k ih => exact fun x => ih x (hp x)

theorem ite {p : Prop} [Decidable p] {q r : Prog V ι α} (hq : q.Writes S) (hr : r.Writes S) :
    (if p then q else r).Writes S := by
  split_ifs
  · exact hq
  · exact hr

theorem mono {T : C → Prop} {p : Prog V ι α} (h : p.Writes S) (hST : ∀ c, S c → T c) :
    p.Writes T := by
  induction p with
  | ret a => exact h
  | fault => exact h
  | atomic c f k ih => exact ⟨h.1.imp_left (hST c), fun v => ih v (h.2 v)⟩
  | input k ih => exact fun x => ih x (h x)

end Writes

/-- A safe program also keeps what is said of the cells it does not change. -/
theorem Safe.of_writes {I J : ∀ c, V c → Prop} {S : C → Prop} {post : α → Prop} {p : Prog V ι α}
    (hp : p.Safe I post) (hw : p.Writes S) (hJ : ∀ c, S c → ∀ v, J c v) :
    p.Safe (fun c v => I c v ∧ J c v) post := by
  induction p with
  | ret a => exact hp
  | fault => exact hp
  | atomic c f k ih =>
    intro v hv
    obtain ⟨hf, hk⟩ := hp v hv.1
    refine ⟨⟨hf, ?_⟩, ih v hk (hw.2 v)⟩
    rcases hw.1 with hc | hsame
    · exact hJ c hc _
    · exact (hsame v).symm ▸ hv.2
  | input k ih => exact fun x => ih x (hp x) (hw x)

/-! ### Conditions -/

/-- A condition on what a program has left to do, in a state of the cells. A program that goes on
with another one meets it only if it does so itself. -/
structure Cond {C : Type} (V : C → Type) (ι : Type) where
  holds : ∀ {α : Type}, Prog V ι α → (∀ c, V c) → Prop
  of_bind : ∀ {α β : Type} {p : Prog V ι β} {g : β → Prog V ι α} {mem : ∀ c, V c},
    holds (p >>= g) mem → holds p mem

/-- In all states within `I`, the program writes only values within `I`, does not fault and ends in
a result that meets `post`, as long as what it has left to do meets `G` at each operation. -/
def SafeWhile (I : ∀ c, V c → Prop) (G : Cond V ι) (post : α → Prop) : Prog V ι α → Prop
  | ret a => post a
  | fault => False
  | atomic c f k => ∀ mem, (∀ c, I c (mem c)) → G.holds (atomic c f k) mem →
      I c (f (mem c)) ∧ (k (mem c)).SafeWhile I G post
  | input k => ∀ x, (k x).SafeWhile I G post

variable {I : ∀ c, V c → Prop} {G : Cond V ι} {post : α → Prop} {c : C}

theorem Safe.safeWhile {p : Prog V ι α} (h : p.Safe I post) : p.SafeWhile I G post := by
  induction p with
  | ret a => exact h
  | fault => exact h
  | atomic c f k ih =>
    intro mem hmem _
    obtain ⟨hf, hk⟩ := h (mem c) (hmem c)
    exact ⟨hf, ih _ hk⟩
  | input k ih => exact fun x => ih x (h x)

namespace SafeWhile

theorem pure {a : α} (h : post a) : (Pure.pure a : Prog V ι α).SafeWhile I G post := h

/-- A program is safe if its first part ends only in results from which its second part is. -/
theorem bind {p : Prog V ι β} {g : β → Prog V ι α}
    (h : p.SafeWhile I G fun b => (g b).SafeWhile I G post) : (p >>= g).SafeWhile I G post := by
  change (p.bind g).SafeWhile I G post
  induction p with
  | ret b => exact h
  | fault => exact h
  | atomic c f k ih =>
    intro mem hmem hG
    obtain ⟨hf, hk⟩ := h mem hmem (G.of_bind (p := atomic c f k) (g := g) hG)
    exact ⟨hf, ih _ hk⟩
  | input k ih => exact fun x => ih x (h x)

theorem mono {p : Prog V ι α} {post' : α → Prop} (h : p.SafeWhile I G post)
    (hpost : ∀ a, post a → post' a) : p.SafeWhile I G post' := by
  induction p with
  | ret a => exact hpost a h
  | fault => exact h
  | atomic c f k ih =>
    intro mem hmem hG
    obtain ⟨hf, hk⟩ := h mem hmem hG
    exact ⟨hf, ih _ hk⟩
  | input k ih => exact fun x => ih x (h x)

/-- The first part of a program returns anything and keeps the invariant. -/
theorem seq {p : Prog V ι β} {g : β → Prog V ι α} (hp : p.SafeWhile I G fun _ => True)
    (hg : ∀ b, (g b).SafeWhile I G post) : (p >>= g).SafeWhile I G post :=
  bind (hp.mono fun b _ => hg b)

theorem ite {p : Prop} [Decidable p] {x y : Prog V ι α} (hx : p → x.SafeWhile I G post)
    (hy : ¬p → y.SafeWhile I G post) : (if p then x else y).SafeWhile I G post := by
  split_ifs with h
  · exact hx h
  · exact hy h

/-- A loop whose body keeps the invariant keeps it. -/
theorem forM {l : List β} {g : β → Prog V ι PUnit}
    (h : ∀ b ∈ l, (g b).SafeWhile I G fun _ => True) :
    (l.forM g).SafeWhile I G fun _ => True := by
  induction l with
  | nil => exact pure trivial
  | cons b l ih =>
    have hrest : (l.forM g).SafeWhile I G fun _ => True :=
      ih fun b' hb' => h b' (List.mem_cons_of_mem b hb')
    exact seq (h b List.mem_cons_self) fun _ => hrest

theorem result {p : Prog V ι α} {a : α} (h : p.SafeWhile I G post) (ha : p.result = some a) :
    post a := by
  cases p with
  | ret b => exact Option.some.inj ha ▸ h
  | fault => exact h.elim
  | atomic c f k => cases ha
  | input k => cases ha

/-- One operation that meets the condition keeps the invariant, and what remains is safe. -/
theorem next [DecidableEq C] {mem mem' : ∀ c, V c} {p p' : Prog V ι α} {x : ι}
    (hp : p.SafeWhile I G post) (hmem : ∀ c, I c (mem c)) (hG : G.holds p mem)
    (h : p.next mem x = some (mem', p')) :
    (∀ c, I c (mem' c)) ∧ p'.SafeWhile I G post := by
  cases p with
  | ret a => simp [Prog.next] at h
  | fault => simp [Prog.next] at h
  | atomic c f k =>
    simp only [Prog.next, Option.some.injEq, Prod.mk.injEq] at h
    obtain ⟨rfl, rfl⟩ := h
    obtain ⟨hf, hk⟩ := hp mem hmem hG
    refine ⟨fun c' => ?_, hk⟩
    rcases eq_or_ne c' c with rfl | hne
    · rw [Function.update_self]
      exact hf
    · rw [Function.update_of_ne hne]
      exact hmem c'
  | input k =>
    simp only [Prog.next, Option.some.injEq, Prod.mk.injEq] at h
    obtain ⟨rfl, rfl⟩ := h
    exact ⟨hmem, hp x⟩

end SafeWhile

end Prog

namespace Pool

variable [DecidableEq C] {κ : Type} {body : κ → Prog V ι α} {s t : Pool V ι κ α}
  {I : ∀ c, V c → Prop} {G : κ → Prog.Cond V ι} {post : ℕ → κ → α → Prop}

/-- The cells are within the invariant, and every call is safe in what remains of it, under the
condition for this call. What its result must meet may depend on when it was made. -/
structure InvWhile (I : ∀ c, V c → Prop) (G : κ → Prog.Cond V ι) (post : ℕ → κ → α → Prop)
    (s : Pool V ι κ α) : Prop where
  mem : ∀ c, I c (s.mem c)
  threads : ∀ i k (p : Prog V ι α), s.threads[i]? = some (k, p) → p.SafeWhile I (G k) (post i k)

/-- A new call is safe, or an operation of a call meets its condition. -/
def Allowed (body : κ → Prog V ι α) (I : ∀ c, V c → Prop) (G : κ → Prog.Cond V ι)
    (post : ℕ → κ → α → Prop) (s : Pool V ι κ α) : Action ι κ → Prop
  | .call k => (body k).SafeWhile I (G k) (post s.threads.length k)
  | .advance i _ => ∀ k p, s.threads[i]? = some (k, p) → (G k).holds p s.mem

/-- **One step.** An action that is allowed keeps the invariant. -/
theorem InvWhile.step {a : Action ι κ} (hs : s.InvWhile I G post)
    (ha : s.Allowed body I G post a) (h : s.step body a = some t) : t.InvWhile I G post := by
  cases a with
  | call k =>
    obtain rfl : _ = t := Option.some.inj h
    refine ⟨hs.mem, fun i k' p hi => ?_⟩
    dsimp only at hi
    rcases Nat.lt_or_ge i s.threads.length with hlt | hge
    · rw [List.getElem?_append_left hlt] at hi
      exact hs.threads i k' p hi
    · rw [List.getElem?_append_right hge] at hi
      obtain ⟨hlt, hget⟩ := List.getElem?_eq_some_iff.mp hi
      obtain rfl : i = s.threads.length := by
        rw [List.length_singleton] at hlt
        omega
      obtain ⟨rfl, rfl⟩ : k = k' ∧ body k = p := by simpa using hget
      exact ha
  | advance i x =>
    simp only [Pool.step, Option.bind_eq_bind, Option.bind_eq_some_iff] at h
    obtain ⟨⟨k, p⟩, hi, ⟨mem', p'⟩, hnext, ht⟩ := h
    obtain rfl : _ = t := Option.some.inj ht
    obtain ⟨hmem, hp'⟩ := (hs.threads i k p hi).next hs.mem (ha k p hi) hnext
    refine ⟨hmem, fun j k' q hj => ?_⟩
    dsimp only at hj
    rw [List.getElem?_set] at hj
    split_ifs at hj with hij hlt
    · obtain ⟨rfl, rfl⟩ := Prod.mk.inj (Option.some.inj hj)
      exact hij ▸ hp'
    · exact hs.threads j k' q hj

end Pool

end XtpRs.Lib
