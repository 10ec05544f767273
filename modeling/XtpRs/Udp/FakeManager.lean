import XtpRs.Lib.HashMap
import XtpRs.Lib.Run
import XtpRs.Net.Addr

/-!
# Sockets with a spoofed source

`FakeUdpManager` of `src/udp/fake.rs` keeps the sockets that send with the address of someone else.
`get_or_create` looks for the socket of a key and creates it if there is none; `close` sets a flag
and drops all sockets. A call of `get_or_create` reads the flag twice, before the look-up and after
the socket is created, but the second check and the insertion are two steps.

Calls run side by side. A step is one access to the shared state; the clock readings and what
`create_fake_udp_socket` returns come with the step.

## Main definitions

* `FakeUdpManager.step`: a step of any call.
* `FakeUdpManager.Undisturbed`: no call has its insertion ahead of it when a `close` drops the
  sockets.

## Main results

* `FakeUdpManager.step_get`, `FakeUdpManager.step_closeNext`: what the steps of the calls do.
* `FakeUdpManager.closed_empty`: in undisturbed runs there is no socket after a `close`, and every
  disturbance can lead to one.
-/

namespace XtpRs.Udp

open Lib

/-- `FakeUdpKey`. -/
structure FakeUdpKey where
  srcAddr : SocketAddr
  fwmark : UInt32
  deriving DecidableEq

/-- A socket that `create_fake_udp_socket` has returned. -/
abbrev FakeSocket := ℕ

/-- `FakeUdpEntry`. -/
structure FakeUdpEntry where
  socket : FakeSocket
  lastUsedSecs : UInt64
  deriving DecidableEq, Repr

/-- The errors of `get_or_create`. -/
inductive FakeUdpError
  /-- `fake UDP manager is closed` -/
  | closed
  | createFailed
  deriving DecidableEq, Repr

/-- The program points of `get_or_create`. -/
inductive GetPc
  | checkClosed
  | lookUp
  | create (now : UInt64)
  | checkAgain (now : UInt64) (socket : FakeSocket)
  | insert (now : UInt64) (socket : FakeSocket)
  | returned (result : Except FakeUdpError FakeSocket)
  deriving DecidableEq

/-- The call has passed both checks, and its insertion is next. -/
def GetPc.isInsert : GetPc → Bool
  | insert _ _ => true
  | _ => false

/-- A call of `get_or_create`. -/
structure GetCall where
  key : FakeUdpKey
  pc : GetPc := .checkClosed
  deriving DecidableEq

/-- The program points of `close`. -/
inductive ClosePc
  | setClosed
  | clear
  | returned
  deriving DecidableEq, Repr

/-- `FakeUdpManager` and the calls on it. -/
structure FakeUdpManager where
  sockets : HashMap FakeUdpKey FakeUdpEntry := ∅
  closed : Bool := false
  gets : List GetCall := []
  closes : List ClosePc := []

/-- A call begins, or a call makes a step. `cleanup_expired` is one step. -/
inductive FakeAction
  | getOrCreate (key : FakeUdpKey)
  | get (i : ℕ) (now : UInt64) (created : Option FakeSocket)
  | cleanupExpired (now timeoutSecs : UInt64)
  | close
  | closeNext (i : ℕ)
  deriving DecidableEq

namespace FakeUdpManager

/-- The sockets and the program point after a step of `get_or_create`. -/
def getStep (s : FakeUdpManager) (now : UInt64) (created : Option FakeSocket) (c : GetCall) :
    Option (HashMap FakeUdpKey FakeUdpEntry × GetPc) :=
  match c.pc with
  | .checkClosed =>
    some (s.sockets, if s.closed then .returned (.error .closed) else .lookUp)
  | .lookUp =>
    match s.sockets.lookup c.key with
    | some entry =>
      some (s.sockets.insert c.key { entry with lastUsedSecs := now }, .returned (.ok entry.socket))
    | none => some (s.sockets, .create now)
  | .create now =>
    match created with
    | some socket => some (s.sockets, .checkAgain now socket)
    | none => some (s.sockets, .returned (.error .createFailed))
  | .checkAgain now socket =>
    some (s.sockets, if s.closed then .returned (.error .closed) else .insert now socket)
  | .insert now socket =>
    -- `entry(key).or_insert(entry)`, then the time of the entry that is there
    let existing := (s.sockets.lookup c.key).getD ⟨socket, now⟩
    some (s.sockets.insert c.key { existing with lastUsedSecs := now },
      .returned (.ok existing.socket))
  | .returned _ => none

/-- The closure of `cleanup_expired`. -/
def isAlive (now timeoutSecs : UInt64) (entry : FakeUdpEntry) : Bool :=
  now.toNat - entry.lastUsedSecs.toNat < timeoutSecs.toNat

/-- A step. -/
def step (s : FakeUdpManager) : FakeAction → Option FakeUdpManager
  | .getOrCreate key => some { s with gets := s.gets ++ [{ key }] }
  | .get i now created => do
    let c ← s.gets[i]?
    let (sockets, pc) ← s.getStep now created c
    return { s with sockets, gets := s.gets.set i { c with pc } }
  | .cleanupExpired now timeoutSecs =>
    some { s with sockets := HashMap.retain s.sockets fun _ => isAlive now timeoutSecs }
  | .close => some { s with closes := s.closes ++ [.setClosed] }
  | .closeNext i => do
    match ← s.closes[i]? with
    | .setClosed => return { s with closed := true, closes := s.closes.set i .clear }
    | .clear => return { s with sockets := ∅, closes := s.closes.set i .returned }
    | .returned => none

/-- A call of `close` has returned. -/
def CloseCompleted (s : FakeUdpManager) : Prop :=
  ClosePc.returned ∈ s.closes

/-- When a `close` is about to drop the sockets, no call of `get_or_create` is between its second
check and its insertion. -/
def Undisturbed (s : FakeUdpManager) (a : FakeAction) : Prop :=
  ∀ i, a = .closeNext i → s.closes[i]? = some .clear → ∀ c ∈ s.gets, c.pc.isInsert = false

instance (s : FakeUdpManager) : Decidable s.CloseCompleted :=
  inferInstanceAs (Decidable (_ ∈ _))

/-! ### The steps -/

variable {s t : FakeUdpManager}

theorem step_get {i : ℕ} {now : UInt64} {created : Option FakeSocket}
    (h : step s (.get i now created) = some t) :
    ∃ c sockets pc, s.gets[i]? = some c ∧ s.getStep now created c = some (sockets, pc) ∧
      t = { s with sockets, gets := s.gets.set i { c with pc } } := by
  simp only [step, Option.bind_eq_bind, Option.bind_eq_some_iff] at h
  obtain ⟨c, hc, ⟨sockets, pc⟩, hstep, ht⟩ := h
  exact ⟨c, sockets, pc, hc, hstep, (Option.some.inj ht).symm⟩

theorem step_closeNext {i : ℕ} (h : step s (.closeNext i) = some t) :
    (s.closes[i]? = some .setClosed ∧
      t = { s with closed := true, closes := s.closes.set i .clear }) ∨
    (s.closes[i]? = some .clear ∧
      t = { s with sockets := ∅, closes := s.closes.set i .returned }) := by
  simp only [step, Option.bind_eq_bind, Option.bind_eq_some_iff] at h
  obtain ⟨pc, hpc, ht⟩ := h
  cases pc with
  | setClosed => exact .inl ⟨hpc, (Option.some.inj ht).symm⟩
  | clear => exact .inr ⟨hpc, (Option.some.inj ht).symm⟩
  | returned => cases ht

/-- With no sockets and the flag set, a call inserts only if its insertion is next. -/
theorem getStep_of_closed {now : UInt64} {created : Option FakeSocket} {c : GetCall}
    {sockets : HashMap FakeUdpKey FakeUdpEntry} {pc : GetPc} (hclosed : s.closed = true)
    (hempty : s.sockets = ∅) (hc : c.pc.isInsert = false)
    (h : s.getStep now created c = some (sockets, pc)) :
    sockets = ∅ ∧ pc.isInsert = false := by
  unfold getStep at h
  split at h
  · obtain ⟨rfl, rfl⟩ := Prod.mk.inj (Option.some.inj h)
    exact ⟨hempty, by rw [hclosed]; rfl⟩
  · rw [hempty, AList.lookup_empty] at h
    obtain ⟨rfl, rfl⟩ := Prod.mk.inj (Option.some.inj h)
    exact ⟨rfl, rfl⟩
  · split at h <;> obtain ⟨rfl, rfl⟩ := Prod.mk.inj (Option.some.inj h) <;> exact ⟨hempty, rfl⟩
  · obtain ⟨rfl, rfl⟩ := Prod.mk.inj (Option.some.inj h)
    exact ⟨hempty, by rw [hclosed]; rfl⟩
  · next hpc => rw [hpc] at hc; cases hc
  · cases h

/-! ### Runs -/

/-- A `close` that is past its first step has set the flag; after one has returned there is no
socket, and no call has its insertion ahead. -/
structure Inv (s : FakeUdpManager) : Prop where
  closed : ∀ pc ∈ s.closes, pc ≠ .setClosed → s.closed = true
  empty : s.CloseCompleted → s.sockets = ∅
  no_insert : s.CloseCompleted → ∀ c ∈ s.gets, c.pc.isInsert = false

theorem Inv.closed_of_completed (h : Inv s) (hs : s.CloseCompleted) : s.closed = true :=
  h.closed _ hs (by decide)

theorem Inv.init : Inv {} where
  closed := by simp
  empty := by simp [CloseCompleted]
  no_insert := by simp [CloseCompleted]

theorem Inv.step {a : FakeAction} (h : Inv s) (hP : Undisturbed s a)
    (hs : FakeUdpManager.step s a = some t) : Inv t := by
  cases a with
  | getOrCreate key =>
      obtain rfl := Option.some.inj hs
      refine ⟨h.closed, h.empty, fun hc c hmem => ?_⟩
      obtain hmem | hmem := List.mem_append.mp hmem
      · exact h.no_insert hc c hmem
      · rw [List.mem_singleton.mp hmem]
        rfl
  | get i now created =>
      obtain ⟨c, sockets, pc, hi, hstep, rfl⟩ := step_get hs
      have hmem := List.mem_of_getElem? hi
      refine ⟨h.closed, fun hc => ?_, fun hc d hd => ?_⟩
      · exact (getStep_of_closed (h.closed_of_completed hc) (h.empty hc) (h.no_insert hc c hmem)
          hstep).1
      · obtain hd | rfl := List.mem_or_eq_of_mem_set hd
        · exact h.no_insert hc d hd
        · exact (getStep_of_closed (h.closed_of_completed hc) (h.empty hc) (h.no_insert hc c hmem)
            hstep).2
  | cleanupExpired now timeoutSecs =>
      obtain rfl := Option.some.inj hs
      refine ⟨h.closed, fun hc => ?_, h.no_insert⟩
      simp only [h.empty hc]
      rfl
  | close =>
      obtain rfl := Option.some.inj hs
      have hcompleted (hc : ClosePc.returned ∈ s.closes ++ [.setClosed]) : s.CloseCompleted := by
        simpa [CloseCompleted] using hc
      refine ⟨fun pc hpc hne => ?_, fun hc => h.empty (hcompleted hc),
        fun hc => h.no_insert (hcompleted hc)⟩
      obtain hpc | hpc := List.mem_append.mp hpc
      · exact h.closed pc hpc hne
      · exact absurd (List.mem_singleton.mp hpc) hne
  | closeNext i =>
      obtain ⟨hi, rfl⟩ | ⟨hi, rfl⟩ := step_closeNext hs
      · have hcompleted (hc : ClosePc.returned ∈ s.closes.set i .clear) : s.CloseCompleted := by
          simpa [CloseCompleted] using List.mem_or_eq_of_mem_set hc
        exact ⟨fun _ _ _ => rfl, fun hc => h.empty (hcompleted hc),
          fun hc => h.no_insert (hcompleted hc)⟩
      · -- the call at its second step has set the flag, and here the condition is needed
        exact ⟨fun _ _ _ => h.closed _ (List.mem_of_getElem? hi) (by decide), fun _ => rfl,
          fun _ => hP i rfl hi⟩

/-- The insertion of a call leaves a socket. -/
theorem exists_step_insert {j : ℕ} {key : FakeUdpKey} {now : UInt64} {socket : FakeSocket}
    (hj : s.gets[j]? = some ⟨key, .insert now socket⟩) :
    ∃ u, step s (.get j 0 none) = some u ∧ u.closes = s.closes ∧ u.sockets ≠ ∅ := by
  simp only [step, hj, Option.bind_eq_bind, Option.bind_some, getStep]
  refine ⟨_, rfl, rfl, fun hempty => ?_⟩
  have hlookup := congrArg (AList.lookup key) hempty
  simp only [AList.lookup_insert, AList.lookup_empty] at hlookup
  cases hlookup

/-- If a `close` drops the sockets while a call has its insertion ahead, the next step of that call
leaves a socket. -/
theorem exists_socket_of_disturbed {a : FakeAction} (hs : step s a = some t)
    (hP : ¬Undisturbed s a) :
    ∃ b u, step t b = some u ∧ u.CloseCompleted ∧ u.sockets ≠ ∅ := by
  simp only [Undisturbed, not_forall] at hP
  obtain ⟨i, rfl, hi, c, hc, hinsert⟩ := hP
  obtain ⟨hi', -⟩ | ⟨-, rfl⟩ := step_closeNext hs
  · rw [hi] at hi'
    cases hi'
  · obtain ⟨j, hj⟩ := List.mem_iff_getElem?.mp hc
    obtain ⟨key, pc⟩ := c
    cases pc with
    | insert now socket =>
        obtain ⟨u, hu, hcloses, hne⟩ := exists_step_insert
          (s := { s with sockets := ∅, closes := s.closes.set i .returned }) hj
        refine ⟨_, u, hu, ?_, hne⟩
        rw [CloseCompleted, hcloses]
        exact List.mem_set (List.getElem?_eq_some_iff.mp hi).1 _
    | _ => exact absurd rfl hinsert

/-- In every run in which no `close` drops the sockets while a call is between its second check and
its insertion, there is no socket once a `close` has returned; and after any other step that drops
the sockets the next step can leave one. -/
theorem closed_empty (s : FakeUdpManager) :
    (Steps step Undisturbed {} s → s.CloseCompleted → s.sockets = ∅) ∧
    (Reachable step {} s → ∀ a t, step s a = some t → ¬Undisturbed s a →
      ∃ b u, step t b = some u ∧ u.CloseCompleted ∧ u.sockets ≠ ∅) :=
  ⟨fun h => (h.invariant Inv.init fun _ _ _ hI hP hs => hI.step hP hs).empty,
    fun _ _ _ hs hP => exists_socket_of_disturbed hs hP⟩

/-- A call that has passed its second check inserts after a `close` has returned. -/
theorem socket_after_close :
    ∃ s, Reachable step {} s ∧ s.CloseCompleted ∧ s.sockets ≠ ∅ := by
  have hrun : ((run step {} [.getOrCreate ⟨.v4 ⟨10, 0, 0, 1⟩ 53, 0⟩, .get 0 1 none, .get 0 1 none,
      .get 0 1 (some 7), .get 0 1 none, .close, .closeNext 0, .closeNext 0,
      .get 0 1 none]).any fun s => decide (s.CloseCompleted ∧ HashMap.size s.sockets ≠ 0)) =
        true := by
    decide
  obtain ⟨s, hs, hcompleted, hsize⟩ := exists_steps_of_run (fun _ _ _ => trivial) hrun
  refine ⟨s, hs, hcompleted, fun hempty => hsize ?_⟩
  rw [hempty]
  rfl

end FakeUdpManager

end XtpRs.Udp
