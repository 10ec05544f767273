import XtpRs.Udp.Runtime

/-!
# What a step of the UDP runtime does

The step function of `XtpRs.Udp.Runtime` follows the source; proofs about it use `Effect`, which
lists every transition with its guard and the state after it, and `Effect.of_step`, which says
that there are no others. The loops of a step have a lemma each: `removeExpired_spec` for the
removals of a garbage collection pass and `drain_eq` for the section of `shutdown` under the map
lock.

## Main definitions

* `Effect`: the transitions.
* `WokenFrom`: a call before and after notifications.

## Main results

* `Effect.of_step`, `removeExpired_spec`, `drain_eq`.
-/

namespace XtpRs.Udp

open Lib

/-! ### Reading the calls after a step -/

namespace Call

theorem pc_wake (n : NotifyId) (c : Call) :
    (c.wake n).pc = if c.pc = .waiting n false then .waiting n true else c.pc := by
  unfold wake
  split_ifs <;> rfl

@[simp] theorem spec_wake (n : NotifyId) (c : Call) : (c.wake n).spec = c.spec := by
  unfold wake
  split_ifs <;> rfl

/-- A waiting future is the only thing that a notification changes. -/
theorem pc_wake_eq_iff {n : NotifyId} {c : Call} {pc : CallPc} (hpc : ∀ b, pc ≠ .waiting n b) :
    (c.wake n).pc = pc ↔ c.pc = pc := by
  rw [pc_wake]
  split_ifs with h
  · rw [h]
    exact ⟨fun h' => absurd h'.symm (hpc true), fun h' => absurd h'.symm (hpc false)⟩
  · rfl

@[simp] theorem creation?_wake (n : NotifyId) (c : Call) :
    (c.wake n).pc.creation? = c.pc.creation? := by
  rw [pc_wake]
  split_ifs with h
  · rw [h]
    rfl
  · rfl

/-- A call that still waits after a notification waits for another one. -/
theorem waiting_of_wake {n m : NotifyId} {c : Call} (h : (c.wake n).pc = .waiting m false) :
    c.pc = .waiting m false ∧ m ≠ n := by
  rw [pc_wake] at h
  split_ifs at h with hc
  · cases h
  · refine ⟨h, ?_⟩
    rintro rfl
    exact hc h

end Call

namespace UdpRuntime

variable {rt rt' : UdpRuntime} {i j : ℕ} {n m : NotifyId} {pc : CallPc}

theorem spec_setPc (rt : UdpRuntime) (i j : ℕ) (pc : CallPc) :
    ((rt.setPc i pc).calls j).spec = (rt.calls j).spec := by
  rcases eq_or_ne j i with rfl | hj
  · simp [setPc]
  · simp [setPc, hj]

theorem pc_setPc (rt : UdpRuntime) (i j : ℕ) (pc : CallPc) :
    ((rt.setPc i pc).calls j).pc = if j = i then pc else (rt.calls j).pc := by
  rcases eq_or_ne j i with rfl | hj
  · simp [setPc]
  · simp [setPc, hj]

theorem exists_notifying_setPc (h : ∃ j, (rt.calls j).pc = .notifying m)
    (hi : (rt.calls i).pc ≠ .notifying m) : ∃ j, ((rt.setPc i pc).calls j).pc = .notifying m := by
  obtain ⟨j, hj⟩ := h
  refine ⟨j, ?_⟩
  have hji : j ≠ i := by
    rintro rfl
    exact hi hj
  rw [pc_setPc, if_neg hji, hj]

theorem exists_notifying_notifyWaiters (h : ∃ j, (rt.calls j).pc = .notifying m) :
    ∃ j, ((rt.notifyWaiters n).calls j).pc = .notifying m := by
  obtain ⟨j, hj⟩ := h
  exact ⟨j, (Call.pc_wake_eq_iff (by simp)).mpr hj⟩

/-! ### Clearing the map -/

theorem mem_readyEntries (rt : UdpRuntime) {k : UdpSessionKey} {s : SessionId} :
    (k, s) ∈ rt.readyEntries ↔ rt.entry k = some (.ready s) := by
  rw [entry, ← HashMap.mem_toList, readyEntries, List.mem_filterMap]
  constructor
  · rintro ⟨⟨k', e⟩, hmem, he⟩
    cases e with
    | creating n => cases he
    | ready t =>
      cases he
      exact hmem
  · exact fun h => ⟨(k, .ready s), h, rfl⟩

/-- The sessions of a list are cancelled, nothing else changes. -/
theorem cancelAll_eq : (l : List SessionId) → (rt : UdpRuntime) → cancelAll l rt =
    { rt with heap := fun s => if s ∈ l then { rt.heap s with cancelled := true } else rt.heap s }
  | [], rt => by simp [cancelAll]
  | s :: l, rt => by
      rw [cancelAll, cancelAll_eq l, cancel]
      congr 1
      funext t
      rcases eq_or_ne t s with rfl | hts
      · simp
      · simp [hts]

/-- `c'` is `c`, except that its future may have been woken. -/
def WokenFrom (c c' : Call) : Prop :=
  c' = c ∨ ∃ n, c.pc = .waiting n false ∧ c' = { c with pc := .waiting n true }

theorem wokenFrom_wake (n : NotifyId) (c : Call) : WokenFrom c (c.wake n) := by
  unfold Call.wake
  split_ifs with hc
  · exact .inr ⟨n, hc, rfl⟩
  · exact .inl rfl

theorem WokenFrom.trans {c c' c'' : Call} (h : WokenFrom c c') (h' : WokenFrom c' c'') :
    WokenFrom c c'' := by
  rcases h' with rfl | ⟨m, hm, rfl⟩
  · exact h
  · rcases h with rfl | ⟨n, -, rfl⟩
    · exact .inr ⟨m, hm, rfl⟩
    · cases hm

theorem WokenFrom.pc_ne_waiting {c c' : Call} (h : WokenFrom c c')
    (hc : c.pc ≠ .waiting n false) : c'.pc ≠ .waiting n false := by
  rcases h with rfl | ⟨m, -, rfl⟩
  · exact hc
  · simp

/-- Notifying all entries being created changes only waiting calls, and no future of a `Notify`
of the list stays unwoken. -/
theorem notifyCreating_spec : (l : List (UdpSessionKey × UdpSessionEntry)) → (rt : UdpRuntime) →
    ∃ calls, notifyCreating l rt = { rt with calls } ∧ (∀ j, WokenFrom (rt.calls j) (calls j)) ∧
      ∀ k n, (k, .creating n) ∈ l → ∀ j, (calls j).pc ≠ .waiting n false
  | [], rt => ⟨rt.calls, rfl, fun _ => .inl rfl, by simp⟩
  | (k, .ready s) :: l, rt => by
      obtain ⟨calls, heq, hwoken, hnone⟩ := notifyCreating_spec l rt
      exact ⟨calls, heq, hwoken, by simpa using hnone⟩
  | (k, .creating n) :: l, rt => by
      obtain ⟨calls, heq, hwoken, hnone⟩ := notifyCreating_spec l (rt.notifyWaiters n)
      refine ⟨calls, heq, fun j => (wokenFrom_wake n _).trans (hwoken j), ?_⟩
      intro k' m hmem j
      rcases List.mem_cons.mp hmem with heq | hmem
      · cases heq
        refine (hwoken j).pc_ne_waiting fun h => ?_
        exact (Call.waiting_of_wake h).2 rfl
      · exact hnone k' m hmem j

/-- The state after the section of `shutdown` under the map lock. -/
theorem drain_eq (rt : UdpRuntime) (d : ℕ) : ∃ calls,
    rt.drain d = { rt.setShutdown d (.reaping true (rt.readyEntries.map Prod.snd)) with
      sessions := ∅
      drained := true
      calls
      heap := fun s => if s ∈ rt.readyEntries.map Prod.snd then
        { rt.heap s with cancelled := true } else rt.heap s } ∧
    (∀ j, WokenFrom (rt.calls j) (calls j)) ∧
    ∀ k n, rt.entry k = some (.creating n) → ∀ j, (calls j).pc ≠ .waiting n false := by
  obtain ⟨calls, heq, hwoken, hnone⟩ := notifyCreating_spec rt.sessions.toList
    (cancelAll (rt.readyEntries.map Prod.snd) rt)
  rw [cancelAll_eq] at hwoken heq
  refine ⟨calls, ?_, hwoken, fun k n hk => hnone k n (rt.sessions.mem_toList.mpr hk)⟩
  simp only [drain, cancelAll_eq, heq, setShutdown]

namespace WokenFrom

variable {c c' : Call} (h : WokenFrom c c')

include h

theorem spec_eq : c'.spec = c.spec := by
  rcases h with rfl | ⟨m, -, rfl⟩ <;> rfl

theorem owned?_eq : c'.pc.owned? = c.pc.owned? := by
  rcases h with rfl | ⟨m, hm, rfl⟩
  · rfl
  · rw [hm]
    rfl

theorem creation?_eq : c'.pc.creation? = c.pc.creation? := by
  rcases h with rfl | ⟨m, hm, rfl⟩
  · rfl
  · rw [hm]
    rfl

theorem pc_eq_iff (hpc : ∀ n b, pc ≠ .waiting n b) : c'.pc = pc ↔ c.pc = pc := by
  rcases h with rfl | ⟨m, hm, rfl⟩
  · rfl
  · rw [hm]
    exact ⟨fun h' => absurd h'.symm (hpc m true), fun h' => absurd h'.symm (hpc m false)⟩

theorem waiting (hc : c'.pc = .waiting n false) : c.pc = .waiting n false := by
  rcases h with rfl | ⟨m, -, rfl⟩
  · exact hc
  · cases hc

end WokenFrom

/-! ### Removing expired sessions -/

/-- The state after the removals of a garbage collection pass over the list `l`: `removed` are
the sessions whose entries were removed, and these are the only entries and sessions changed. -/
structure RemovedFrom (rt : UdpRuntime) (now : ℕ) (l : List (UdpSessionKey × SessionId))
    (rt' : UdpRuntime) (removed : List SessionId) : Prop where
  eq : rt' = { rt with sessions := rt'.sessions, heap := rt'.heap }
  entry : ∀ k, rt'.entry k = rt.entry k ∨
    rt'.entry k = none ∧ ∃ s, rt.entry k = some (.ready s) ∧ s ∈ removed
  mem : ∀ s ∈ removed, ∃ k, rt.entry k = some (.ready s) ∧ rt'.entry k = none ∧
    (k, s) ∈ l ∧ rt.expired now s = true
  heap : ∀ s, rt'.heap s =
    if s ∈ removed then { rt.heap s with cancelled := true } else rt.heap s

theorem removeExpired_spec (now : ℕ) : (l : List (UdpSessionKey × SessionId)) →
    (rt : UdpRuntime) → RemovedFrom rt now l (removeExpired now l rt).1 (removeExpired now l rt).2
  | [], rt => ⟨rfl, fun _ => .inl rfl, by simp [removeExpired], by simp [removeExpired]⟩
  | (k, s) :: l, rt => by
      unfold removeExpired
      split_ifs with hk
      · have ih := removeExpired_spec now l ((rt.removeEntry k).cancel s)
        have hentry : ∀ k', ((rt.removeEntry k).cancel s).entry k' =
            if k' = k then none else rt.entry k' := HashMap.lookup_erase_eq_ite _ k
        have hexp : ∀ s', ((rt.removeEntry k).cancel s).expired now s' = rt.expired now s' := by
          intro s'
          rcases eq_or_ne s' s with rfl | hs'
          · simp [expired, cancel, removeEntry]
          · simp [expired, cancel, removeEntry, hs']
        have hnone : (removeExpired now l ((rt.removeEntry k).cancel s)).1.entry k = none := by
          rcases ih.entry k with h | ⟨h, -⟩
          · rw [h, hentry, if_pos rfl]
          · exact h
        refine ⟨?_, fun k' => ?_, fun s' hs' => ?_, fun s' => ?_⟩
        · rw [ih.eq]
          rfl
        · rcases eq_or_ne k' k with rfl | hk'
          · exact .inr ⟨hnone, s, hk.1, List.mem_cons_self⟩
          · rcases ih.entry k' with h | ⟨h, s', hs', hmem⟩
            · exact .inl (by rw [h, hentry, if_neg hk'])
            · rw [hentry, if_neg hk'] at hs'
              exact .inr ⟨h, s', hs', List.mem_cons_of_mem _ hmem⟩
        · rcases List.mem_cons.mp hs' with rfl | hs'
          · exact ⟨k, hk.1, hnone, List.mem_cons_self, hk.2⟩
          · obtain ⟨k', hk', hnone', hmem, hexp'⟩ := ih.mem s' hs'
            rw [hentry] at hk'
            split_ifs at hk'
            exact ⟨k', hk', hnone', List.mem_cons_of_mem _ hmem, hexp s' ▸ hexp'⟩
        · rw [ih.heap]
          rcases eq_or_ne s' s with rfl | hs'
          · simp [cancel, removeEntry]
          · simp [cancel, removeEntry, hs']
      · have ih := removeExpired_spec now l rt
        refine ⟨ih.eq, ih.entry, fun s' hs' => ?_, ih.heap⟩
        obtain ⟨k', h1, h2, h3, h4⟩ := ih.mem s' hs'
        exact ⟨k', h1, h2, List.mem_cons_of_mem _ h3, h4⟩

/-! ### The transitions -/

/-- The transitions of the runtime: the guard of each, its action and the state after it. -/
inductive Effect (rt : UdpRuntime) : Action → UdpRuntime → Prop
  | call (spec : UdpSessionSpec) (listener : Bool) :
      Effect rt (.call spec listener) { rt with
        calls := Function.update rt.calls rt.numCalls ⟨spec, listener, .checkClosed⟩
        numCalls := rt.numCalls + 1 }
  | check (i : ℕ) (pc : CallPc) (hi : (rt.calls i).pc = .checkClosed)
      (hpc : pc = .lockMap ∨ pc = .returned (.error .shuttingDown)) :
      Effect rt (.advance i) (rt.setPc i pc)
  | refuse (i : ℕ) (hi : (rt.calls i).pc = .lockMap) (hclosed : rt.closed = true) :
      Effect rt (.advance i) (rt.setPc i (.returned (.error .shuttingDown)))
  | reuse (i : ℕ) (s : SessionId) (hi : (rt.calls i).pc = .lockMap) (hopen : rt.closed = false)
      (hk : rt.entry (rt.calls i).spec.key = some (.ready s)) :
      Effect rt (.advance i) (rt.setPc i (.returned (.ok s)))
  | wait (i : ℕ) (n : NotifyId) (hi : (rt.calls i).pc = .lockMap) (hopen : rt.closed = false)
      (hk : rt.entry (rt.calls i).spec.key = some (.creating n)) :
      Effect rt (.advance i) (rt.setPc i (.waiting n false))
  | reserve (i : ℕ) (hi : (rt.calls i).pc = .lockMap) (hopen : rt.closed = false)
      (hk : rt.entry (rt.calls i).spec.key = none) :
      Effect rt (.advance i)
        { (rt.insertEntry (rt.calls i).spec.key (.creating rt.numNotifies)).setPc i
            (.joining rt.numNotifies rt.numCreations) with
          numNotifies := rt.numNotifies + 1
          creations := Function.update rt.creations rt.numCreations
            ⟨(rt.calls i).spec, .connecting⟩
          numCreations := rt.numCreations + 1 }
  | retry (i : ℕ) (n : NotifyId) (hi : (rt.calls i).pc = .waiting n true) :
      Effect rt (.advance i) (rt.setPc i .lockMap)
  | joined (i : ℕ) (n : NotifyId) (c : ℕ) (hi : (rt.calls i).pc = .joining n c)
      (htask : (rt.creations c).task = .failed ∨ ∃ s, (rt.creations c).task = .succeeded s) :
      Effect rt (.advance i) (rt.setPc i (.publishing n c))
  | joinFailed (i : ℕ) (n : NotifyId) (c : ℕ) (hi : (rt.calls i).pc = .joining n c)
      (htask : (rt.creations c).task = .panicked) :
      Effect rt (.advance i) (rt.setPc i (.removing n))
  | publishCancelled (i : ℕ) (n : NotifyId) (c : ℕ) (s : SessionId)
      (hi : (rt.calls i).pc = .publishing n c) (hclosed : rt.closed = true)
      (htask : (rt.creations c).task = .succeeded s) :
      Effect rt (.advance i) ((((rt.removeEntry (rt.calls i).spec.key).notifyWaiters n).cancel s
        ).setPc i (.abortingRecv s))
  | publishError (i : ℕ) (n : NotifyId) (c : ℕ) (e : GetSessionError)
      (hi : (rt.calls i).pc = .publishing n c)
      (htask : ∀ s, (rt.creations c).task = .succeeded s → (rt.heap s).cancelled = true) :
      Effect rt (.advance i) (((rt.removeEntry (rt.calls i).spec.key).notifyWaiters n).setPc i
        (.returned (.error e)))
  | publishReady (i : ℕ) (n : NotifyId) (c : ℕ) (s : SessionId)
      (hi : (rt.calls i).pc = .publishing n c) (hopen : rt.closed = false)
      (htask : (rt.creations c).task = .succeeded s) (hlive : (rt.heap s).cancelled = false) :
      Effect rt (.advance i) (((rt.insertEntry (rt.calls i).spec.key (.ready s)).notifyWaiters n
        ).setPc i (.returned (.ok s)))
  | remove (i : ℕ) (n : NotifyId) (hi : (rt.calls i).pc = .removing n) :
      Effect rt (.advance i) ((rt.removeEntry (rt.calls i).spec.key).setPc i (.notifying n))
  | notify (i : ℕ) (n : NotifyId) (hi : (rt.calls i).pc = .notifying n) :
      Effect rt (.advance i)
        ((rt.notifyWaiters n).setPc i (.returned (.error .creationPanicked)))
  | abortRecv (i : ℕ) (s : SessionId) (hi : (rt.calls i).pc = .abortingRecv s) :
      Effect rt (.advance i) ((rt.abortRecv s).setPc i (.returned (.error .shuttingDown)))
  | abort (i : ℕ) (hi : (rt.calls i).pc.atAwait = true) :
      Effect rt (.abort i) (rt.setPc i .aborted)
  | connectFailed (c : ℕ) (outcome : ConnectOutcome) (task : CreateTask)
      (hc : (rt.creations c).task = .connecting) (htask : task = .failed ∨ task = .panicked) :
      Effect rt (.connect c outcome) (rt.setTask c task)
  | connected (c : ℕ) (outbound : UdpOutbound) (now : ℕ)
      (hc : (rt.creations c).task = .connecting)
      (hout : ¬((rt.creations c).spec.routing = .forceSocks5 ∧ outbound = .direct)) :
      Effect rt (.connect c (.connected outbound now))
        { rt.setTask c (.awaitingReady rt.numSessions) with
          heap := Function.update rt.heap rt.numSessions
            ⟨(rt.creations c).spec, outbound, now, false, .starting⟩
          numSessions := rt.numSessions + 1 }
  | ready (c : ℕ) (s : SessionId) (hc : (rt.creations c).task = .awaitingReady s)
      (hs : (rt.heap s).recvTask ≠ .starting) :
      Effect rt (.ready c) (rt.setTask c (.succeeded s))
  | recvStart (s : SessionId) (hlt : s < rt.numSessions)
      (hs : (rt.heap s).recvTask = .starting) : Effect rt (.recvStart s) (rt.setRecv s .running)
  | recvExit (s : SessionId) (hs : (rt.heap s).recvTask = .running) :
      Effect rt (.recvExit s) ((rt.setRecv s .exited).cancel s)
  | recvRemove (s : SessionId) (hs : (rt.heap s).recvTask = .exited)
      (hk : rt.entry (rt.heap s).key = some (.ready s)) :
      Effect rt (.recvRemove s) ((rt.setRecv s .finished).removeEntry (rt.heap s).key)
  | recvFinish (s : SessionId) (hs : (rt.heap s).recvTask = .exited)
      (hk : rt.entry (rt.heap s).key ≠ some (.ready s)) :
      Effect rt (.recvRemove s) (rt.setRecv s .finished)
  | touch (s : SessionId) (now : ℕ) :
      Effect rt (.touch s now)
        { rt with heap := Function.update rt.heap s { rt.heap s with lastSeenSecs := now } }
  | gcSnapshot (now : ℕ) :
      Effect rt (.gcSnapshot now)
        { rt.setGc rt.numGcs (.checking now rt.readyEntries []) with numGcs := rt.numGcs + 1 }
  | gcCheck (g now : ℕ) (rest expired : List (UdpSessionKey × SessionId)) :
      Effect rt (.gcCheck g) (rt.setGc g (.checking now rest expired))
  | gcRemove (g now : ℕ) (expired : List (UdpSessionKey × SessionId))
      (hg : rt.gcs g = .checking now [] expired) :
      Effect rt (.gcRemove g)
        ((removeExpired now expired rt).1.setGc g (.aborting (removeExpired now expired rt).2))
  | gcAbort (g : ℕ) (s : SessionId) (rest : List SessionId)
      (hg : rt.gcs g = .aborting (s :: rest)) :
      Effect rt (.gcAbort g) ((rt.abortRecv s).setGc g (.aborting rest))
  | gcDone (g : ℕ) (a : Action) (ha : a = .gcRemove g ∨ a = .gcAbort g ∨ a = .gcKill g) :
      Effect rt a (rt.setGc g .done)
  | shutdown :
      Effect rt .shutdown { rt.setShutdown rt.numShutdowns .locking with
        closed := true
        numShutdowns := rt.numShutdowns + 1 }
  | shutdownDrain (d : ℕ) (hd : rt.shutdowns d = .locking) :
      Effect rt (.shutdownDrain d) (rt.drain d)
  | reapAbort (d : ℕ) (ok : Bool) (s : SessionId) (rest : List SessionId)
      (hd : rt.shutdowns d = .reaping ok (s :: rest)) :
      Effect rt (.shutdownReap d true) ((rt.abortRecv s).setShutdown d (.reaping false rest))
  | reapJoin (d : ℕ) (ok : Bool) (s : SessionId) (rest : List SessionId)
      (hd : rt.shutdowns d = .reaping ok (s :: rest)) :
      Effect rt (.shutdownReap d false) (rt.setShutdown d (.reaping ok rest))
  | shutdownReturn (d : ℕ) (ok : Bool) (hd : rt.shutdowns d = .reaping ok []) :
      Effect rt (.shutdownReturn d) (rt.setShutdown d (.returned ok))

namespace Effect

theorem of_lookupOrReserve (hi : (rt.calls i).pc = .lockMap) :
    Effect rt (.advance i) (rt.lookupOrReserve i) := by
  simp only [lookupOrReserve]
  split_ifs with hclosed
  · exact .refuse i hi hclosed
  have hopen : rt.closed = false := by simpa using hclosed
  split
  · rename_i s hs
    exact .reuse i s hi hopen hs
  · rename_i n hn
    exact .wait i n hi hopen hn
  · rename_i hnone
    exact .reserve i hi hopen hnone

theorem of_publish {c : ℕ} (hi : (rt.calls i).pc = .publishing n c) :
    Effect rt (.advance i) (rt.publish i n c) := by
  simp only [publish]
  split_ifs with hclosed
  · split
    · rename_i s hs
      exact .publishCancelled i n c s hi hclosed hs
    · rename_i hne
      exact .publishError i n c _ hi fun s hs => absurd hs (hne s)
  have hopen : rt.closed = false := by simpa using hclosed
  split
  · rename_i s hs
    split_ifs with hc
    · refine .publishError i n c _ hi fun s' hs' => ?_
      rw [hs] at hs'
      cases hs'
      exact hc
    · exact .publishReady i n c s hi hopen hs (by simpa using hc)
  · rename_i hne
    exact .publishError i n c _ hi fun s hs => absurd hs (hne s)

theorem of_advanceCall (hs : rt.advanceCall i = some rt') : Effect rt (.advance i) rt' := by
  unfold advanceCall at hs
  split at hs
  case h_1 hi =>
    cases hs
    refine .check i _ hi ?_
    split_ifs
    · exact .inr rfl
    · exact .inl rfl
  case h_2 hi =>
    cases hs
    exact of_lookupOrReserve hi
  case h_3 n hi =>
    cases hs
    exact .retry i n hi
  case h_4 n c hi =>
    split at hs
    · rename_i s hs'
      cases hs
      exact .joined i n c hi (.inr ⟨s, hs'⟩)
    · rename_i hs'
      cases hs
      exact .joined i n c hi (.inl hs')
    · rename_i hs'
      cases hs
      exact .joinFailed i n c hi hs'
    · cases hs
  case h_5 n c hi =>
    cases hs
    exact of_publish hi
  case h_6 n hi =>
    cases hs
    exact .remove i n hi
  case h_7 n hi =>
    cases hs
    exact .notify i n hi
  case h_8 s hi =>
    cases hs
    exact .abortRecv i s hi
  case h_9 => cases hs

/-- **Step inversion.** A step is one of the listed transitions. -/
theorem of_step {a : Action} (hs : rt.step a = some rt') : Effect rt a rt' := by
  cases a with
  | call spec listener =>
    cases hs
    exact .call spec listener
  | advance i => exact of_advanceCall hs
  | abort i =>
    simp only [step] at hs
    split_ifs at hs with hi
    cases hs
    exact .abort i hi.2
  | connect c outcome =>
    simp only [step] at hs
    split_ifs at hs with hc
    cases outcome with
    | failed =>
      cases hs
      exact .connectFailed c _ _ hc (.inl rfl)
    | panicked =>
      cases hs
      exact .connectFailed c _ _ hc (.inr rfl)
    | connected outbound now =>
      simp only [UdpRuntime.connect] at hs
      split_ifs at hs with hout
      cases hs
      exact .connected c outbound now hc hout
  | ready c =>
    simp only [step] at hs
    split at hs
    · rename_i s hc
      split_ifs at hs with hstart
      cases hs
      exact .ready c s hc hstart
    · cases hs
  | recvStart s =>
    simp only [step] at hs
    split_ifs at hs with h
    cases hs
    exact .recvStart s h.1 h.2
  | recvExit s =>
    simp only [step] at hs
    split_ifs at hs with h
    cases hs
    exact .recvExit s h
  | recvRemove s =>
    simp only [step] at hs
    split_ifs at hs with h
    cases hs
    simp only [UdpRuntime.recvRemove]
    split_ifs with hk
    · exact .recvRemove s h hk
    · exact .recvFinish s h hk
  | touch s now =>
    cases hs
    exact .touch s now
  | gcSnapshot now =>
    cases hs
    exact .gcSnapshot now
  | gcCheck g =>
    simp only [step] at hs
    split at hs
    · cases hs
      exact .gcCheck g _ _ _
    · cases hs
  | gcRemove g =>
    simp only [step] at hs
    split at hs
    · cases hs
      exact .gcDone g _ (.inl rfl)
    · rename_i hg
      cases hs
      exact .gcRemove g _ _ hg
    · cases hs
  | gcAbort g =>
    simp only [step] at hs
    split at hs
    · rename_i hg
      cases hs
      exact .gcAbort g _ _ hg
    · cases hs
      exact .gcDone g _ (.inr (.inl rfl))
    · cases hs
  | gcKill g =>
    cases hs
    exact .gcDone g _ (.inr (.inr rfl))
  | shutdown =>
    cases hs
    exact .shutdown
  | shutdownDrain d =>
    simp only [step] at hs
    split_ifs at hs with hd
    cases hs
    exact .shutdownDrain d hd
  | shutdownReap d timedOut =>
    simp only [step] at hs
    split at hs
    · rename_i ok s rest hd
      cases timedOut with
      | true =>
        cases hs
        exact .reapAbort d ok s rest hd
      | false =>
        simp only [Bool.false_eq_true, if_false] at hs
        split_ifs at hs
        cases hs
        exact .reapJoin d ok s rest hd
    · cases hs
  | shutdownReturn d =>
    simp only [step] at hs
    split at hs
    · rename_i ok hd
      cases hs
      exact .shutdownReturn d ok hd
    · cases hs

end Effect

end UdpRuntime

end XtpRs.Udp
