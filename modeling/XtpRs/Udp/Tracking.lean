import XtpRs.Udp.SingleFlight

/-!
# Every live session is tracked

A session is created by a spawned `create_udp_session`, handed to the call that joins it, and
registered by that call under its key. From then on the receive task, the garbage collection and
`shutdown` may each end it. `SessionInv` relates the map to the sessions and their receive tasks,
and `Tracked` says that a session that is not cancelled is registered or still on its way from
its creation to the map.

## Main definitions

* `UdpRuntime.InFlight`: the session belongs to a call that has not published it.
* `UdpRuntime.Retired`: a task is about to abort or join the receive task of the session.
* `UdpRuntime.SessionInv`, `UdpRuntime.Tracked`.

## Main results

* `UdpRuntime.SessionInv.step`, `UdpRuntime.Tracked.step`.
* `UdpRuntime.no_zombie_no_untracked`: the statement about whole runs without aborts.
-/

namespace XtpRs.Udp

open Lib

/-- The receive loop has ended. -/
def RecvTask.Ended (t : RecvTask) : Prop :=
  t ≠ .starting ∧ t ≠ .running

namespace UdpRuntime

variable {rt rt' : UdpRuntime} {i : ℕ} {n : NotifyId} {s : SessionId} {k : UdpSessionKey}

/-- The session belongs to a call of `get_or_create_udp_session` that has not published it. -/
def InFlight (rt : UdpRuntime) (s : SessionId) : Prop :=
  ∃ i c, (rt.calls i).pc.creation? = some c ∧ (rt.creations c).task.session? = some s

/-- A call, a garbage collection pass or a `shutdown` is about to abort or join the receive task
of the session. -/
def Retired (rt : UdpRuntime) (s : SessionId) : Prop :=
  (∃ i, (rt.calls i).pc = .abortingRecv s) ∨ (∃ g l, rt.gcs g = .aborting l ∧ s ∈ l) ∨
    ∃ d ok l, rt.shutdowns d = .reaping ok l ∧ s ∈ l

/-- The map, the sessions and their receive tasks. -/
structure SessionInv (rt : UdpRuntime) : Prop where
  task_lt : ∀ c s, (rt.creations c).task.session? = some s → s < rt.numSessions
  task_spec : ∀ c s, (rt.creations c).task.session? = some s →
    (rt.heap s).spec = (rt.creations c).spec
  task_started : ∀ c s, (rt.creations c).task = .succeeded s → (rt.heap s).recvTask ≠ .starting
  ready_lt : ∀ k s, rt.entry k = some (.ready s) → s < rt.numSessions
  ready_key : ∀ k s, rt.entry k = some (.ready s) → (rt.heap s).key = k
  ready_recv : ∀ k s, rt.entry k = some (.ready s) →
    (rt.heap s).recvTask = .running ∨ (rt.heap s).recvTask = .exited
  retired_lt : ∀ s, rt.Retired s → s < rt.numSessions
  retired_cancelled : ∀ s, rt.Retired s → (rt.heap s).cancelled = true
  retired_entry : ∀ s, rt.Retired s → ∀ k, rt.entry k ≠ some (.ready s)
  ended_cancelled : ∀ s, (rt.heap s).recvTask.Ended → (rt.heap s).cancelled = true

/-- Every session that is not cancelled is registered under its key or in flight. -/
def Tracked (rt : UdpRuntime) : Prop :=
  ∀ s < rt.numSessions, (rt.heap s).cancelled = false →
    rt.entry (rt.heap s).key = some (.ready s) ∨ rt.InFlight s

/-! ### Steps that create nothing -/

/-- What a step may do to a session: its specification stays, a cancelled session stays
cancelled, a started receive task stays started, and an ended one belongs to a cancelled
session. -/
structure SessionStep (x y : UdpSession) : Prop where
  spec : y.spec = x.spec
  cancelled : x.cancelled = true → y.cancelled = true
  started : x.recvTask ≠ .starting → y.recvTask ≠ .starting
  ended : y.recvTask.Ended → y.cancelled = true

namespace SessionInv

theorem sessionStep_self (h : SessionInv rt) (s : SessionId) :
    SessionStep (rt.heap s) (rt.heap s) :=
  ⟨rfl, id, id, h.ended_cancelled s⟩

/-- The invariant after a step that creates and registers nothing. -/
theorem of_frame (h : SessionInv rt) (hcreations : rt'.creations = rt.creations)
    (hnum : rt'.numSessions = rt.numSessions)
    (hheap : ∀ s, SessionStep (rt.heap s) (rt'.heap s))
    (hentry : ∀ k s, rt'.entry k = some (.ready s) → rt.entry k = some (.ready s) ∧
      ((rt'.heap s).recvTask = .running ∨ (rt'.heap s).recvTask = .exited))
    (hretired : ∀ s, rt'.Retired s → rt.Retired s ∨
      s < rt.numSessions ∧ (rt'.heap s).cancelled = true ∧ ∀ k, rt'.entry k ≠ some (.ready s)) :
    SessionInv rt' where
  task_lt c s hc := by
    rw [hcreations] at hc
    rw [hnum]
    exact h.task_lt c s hc
  task_spec c s hc := by
    rw [hcreations] at hc ⊢
    rw [(hheap s).spec]
    exact h.task_spec c s hc
  task_started c s hc := by
    rw [hcreations] at hc
    exact (hheap s).started (h.task_started c s hc)
  ready_lt k s hk := by
    rw [hnum]
    exact h.ready_lt k s (hentry k s hk).1
  ready_key k s hk := by
    rw [UdpSession.key, (hheap s).spec]
    exact h.ready_key k s (hentry k s hk).1
  ready_recv k s hk := (hentry k s hk).2
  retired_lt s hs := by
    rw [hnum]
    exact (hretired s hs).elim (h.retired_lt s) And.left
  retired_cancelled s hs :=
    (hretired s hs).elim (fun h' => (hheap s).cancelled (h.retired_cancelled s h'))
      fun h' => h'.2.1
  retired_entry s hs k hk :=
    (hretired s hs).elim (fun h' => h.retired_entry s h' k (hentry k s hk).1)
      fun h' => h'.2.2 k hk
  ended_cancelled s := (hheap s).ended

/-- The invariant after a step that leaves the sessions as they are. -/
theorem of_frame_heap (h : SessionInv rt) (hcreations : rt'.creations = rt.creations)
    (hnum : rt'.numSessions = rt.numSessions) (hheap : rt'.heap = rt.heap)
    (hentry : ∀ k s, rt'.entry k = some (.ready s) → rt.entry k = some (.ready s))
    (hretired : ∀ s, rt'.Retired s → rt.Retired s) : SessionInv rt' := by
  refine h.of_frame hcreations hnum (fun s => ?_) (fun k s hk => ⟨hentry k s hk, ?_⟩)
    fun s hs => .inl (hretired s hs)
  · rw [hheap]
    exact h.sessionStep_self s
  · rw [hheap]
    exact h.ready_recv k s (hentry k s hk)

/-- The invariant after a step that changes one session. -/
theorem of_frame_update (h : SessionInv rt) {x : UdpSession}
    (hcreations : rt'.creations = rt.creations) (hnum : rt'.numSessions = rt.numSessions)
    (hheap : rt'.heap = Function.update rt.heap s x) (hx : SessionStep (rt.heap s) x)
    (hentry : ∀ k s, rt'.entry k = some (.ready s) → rt.entry k = some (.ready s))
    (hrecv : ∀ k, rt'.entry k = some (.ready s) → x.recvTask = .running ∨ x.recvTask = .exited)
    (hretired : ∀ s, rt'.Retired s → rt.Retired s ∨
      s < rt.numSessions ∧ (rt'.heap s).cancelled = true ∧ ∀ k, rt'.entry k ≠ some (.ready s)) :
    SessionInv rt' := by
  refine h.of_frame hcreations hnum (fun t => ?_) (fun k t hk => ⟨hentry k t hk, ?_⟩) hretired
  · rw [hheap]
    rcases eq_or_ne t s with rfl | hts
    · rwa [Function.update_self]
    · rw [Function.update_of_ne hts]
      exact h.sessionStep_self t
  · rw [hheap]
    rcases eq_or_ne t s with rfl | hts
    · rw [Function.update_self]
      exact hrecv k hk
    · rw [Function.update_of_ne hts]
      exact h.ready_recv k t (hentry k t hk)

end SessionInv

/-- Fewer points about to abort or join a receive task. -/
theorem Retired.mono (h : rt'.Retired s)
    (hcalls : ∀ i, (rt'.calls i).pc = .abortingRecv s → (rt.calls i).pc = .abortingRecv s)
    (hgcs : ∀ g l, rt'.gcs g = .aborting l → s ∈ l → ∃ l', rt.gcs g = .aborting l' ∧ s ∈ l')
    (hshutdowns : ∀ d ok l, rt'.shutdowns d = .reaping ok l → s ∈ l →
      ∃ ok' l', rt.shutdowns d = .reaping ok' l' ∧ s ∈ l') : rt.Retired s := by
  rcases h with ⟨i, hi⟩ | ⟨g, l, hg, hl⟩ | ⟨d, ok, l, hd, hl⟩
  · exact .inl ⟨i, hcalls i hi⟩
  · obtain ⟨l', hg', hl'⟩ := hgcs g l hg hl
    exact .inr (.inl ⟨g, l', hg', hl'⟩)
  · obtain ⟨ok', l', hd', hl'⟩ := hshutdowns d ok l hd hl
    exact .inr (.inr ⟨d, ok', l', hd', hl'⟩)

/-- Only the calls have changed. -/
theorem Retired.of_calls {calls : ℕ → Call} (h : Retired { rt with calls } s)
    (hcalls : ∀ i, (calls i).pc = .abortingRecv s → (rt.calls i).pc = .abortingRecv s) :
    rt.Retired s :=
  h.mono hcalls (fun _ l hg hl => ⟨l, hg, hl⟩) fun _ ok l hd hl => ⟨ok, l, hd, hl⟩

theorem Retired.of_setPc {pc : CallPc} (h : (rt.setPc i pc).Retired s)
    (hpc : pc ≠ .abortingRecv s) : rt.Retired s := by
  refine h.of_calls fun j hj => ?_
  have hj' : ((rt.setPc i pc).calls j).pc = .abortingRecv s := hj
  rw [pc_setPc] at hj'
  split_ifs at hj' with hji
  · exact absurd hj' hpc
  · exact hj'

theorem Retired.of_setGc {g : ℕ} {gc : GcPass} (h : (rt.setGc g gc).Retired s)
    (hgc : ∀ l, gc = .aborting l → s ∈ l → ∃ l', rt.gcs g = .aborting l' ∧ s ∈ l') :
    rt.Retired s := by
  refine h.mono (fun _ hi => hi) (fun g' l hg hl => ?_) fun _ ok l hd hl => ⟨ok, l, hd, hl⟩
  rcases eq_or_ne g' g with rfl | hne
  · exact hgc l (by simpa [setGc] using hg) hl
  · exact ⟨l, by simpa [setGc, hne] using hg, hl⟩

theorem Retired.of_setShutdown {d : ℕ} {call : ShutdownCall}
    (h : (rt.setShutdown d call).Retired s)
    (hcall : ∀ ok l, call = .reaping ok l → s ∈ l →
      ∃ ok' l', rt.shutdowns d = .reaping ok' l' ∧ s ∈ l') : rt.Retired s := by
  refine h.mono (fun _ hi => hi) (fun _ l hg hl => ⟨l, hg, hl⟩) fun e ok l he hl => ?_
  rcases eq_or_ne e d with rfl | hne
  · exact hcall ok l (by simpa [setShutdown] using he) hl
  · exact ⟨ok, l, by simpa [setShutdown, hne] using he, hl⟩

namespace SessionInv

theorem setPc (h : SessionInv rt) {pc : CallPc} (hpc : ∀ s, pc ≠ .abortingRecv s) :
    SessionInv (rt.setPc i pc) :=
  h.of_frame_heap rfl rfl rfl (fun _ _ hk => hk) fun s hs => hs.of_setPc (hpc s)

/-- A call is about to abort the receive task of the session it has cancelled. -/
theorem setPc_abortingRecv (h : SessionInv rt) (hlt : s < rt.numSessions)
    (hcancelled : (rt.heap s).cancelled = true) (hentry : ∀ k, rt.entry k ≠ some (.ready s)) :
    SessionInv (rt.setPc i (.abortingRecv s)) := by
  refine h.of_frame rfl rfl h.sessionStep_self (fun k t hk => ⟨hk, h.ready_recv k t hk⟩) ?_
  intro t ht
  rcases eq_or_ne t s with rfl | hts
  · exact .inr ⟨hlt, hcancelled, hentry⟩
  · exact .inl (ht.of_setPc (by simpa using hts.symm))

theorem woken (h : SessionInv rt) {calls : ℕ → Call}
    (hw : ∀ j, WokenFrom (rt.calls j) (calls j)) : SessionInv { rt with calls } :=
  h.of_frame_heap rfl rfl rfl (fun _ _ hk => hk) fun _ hs =>
    hs.of_calls fun j => ((hw j).pc_eq_iff (by simp)).mp

theorem notifyWaiters (h : SessionInv rt) (n : NotifyId) : SessionInv (rt.notifyWaiters n) :=
  h.woken fun _ => wokenFrom_wake n _

theorem setGc (h : SessionInv rt) {g : ℕ} {gc : GcPass}
    (hgc : ∀ s l, gc = .aborting l → s ∈ l → ∃ l', rt.gcs g = .aborting l' ∧ s ∈ l') :
    SessionInv (rt.setGc g gc) :=
  h.of_frame_heap rfl rfl rfl (fun _ _ hk => hk) fun s hs => hs.of_setGc (hgc s)

theorem setShutdown (h : SessionInv rt) {d : ℕ} {call : ShutdownCall}
    (hcall : ∀ s ok l, call = .reaping ok l → s ∈ l →
      ∃ ok' l', rt.shutdowns d = .reaping ok' l' ∧ s ∈ l') :
    SessionInv (rt.setShutdown d call) :=
  h.of_frame_heap rfl rfl rfl (fun _ _ hk => hk) fun s hs => hs.of_setShutdown (hcall s)

theorem removeEntry (h : SessionInv rt) (k : UdpSessionKey) : SessionInv (rt.removeEntry k) := by
  refine h.of_frame_heap rfl rfl rfl (fun k' s hk' => ?_) fun _ hs => hs
  change (rt.sessions.erase k).lookup k' = _ at hk'
  rw [HashMap.lookup_erase_eq_ite] at hk'
  split_ifs at hk'
  exact hk'

/-- An entry without a session is inserted. -/
theorem insertCreating (h : SessionInv rt) (k : UdpSessionKey) (n : NotifyId) :
    SessionInv (rt.insertEntry k (.creating n)) := by
  refine h.of_frame_heap rfl rfl rfl (fun k' s hk' => ?_) fun _ hs => hs
  change (rt.sessions.insert k _).lookup k' = _ at hk'
  rw [HashMap.lookup_insert_eq_ite] at hk'
  split_ifs at hk'
  · cases hk'
  · exact hk'

/-- A live session is registered under its key. -/
theorem insertReady (h : SessionInv rt) (hlt : s < rt.numSessions) (hkey : (rt.heap s).key = k)
    (hlive : (rt.heap s).cancelled = false) (hstarted : (rt.heap s).recvTask ≠ .starting) :
    SessionInv (rt.insertEntry k (.ready s)) := by
  have hrunning : (rt.heap s).recvTask = .running := by
    by_contra hne
    rw [h.ended_cancelled s ⟨hstarted, hne⟩] at hlive
    cases hlive
  -- afterwards a `Ready` entry is an old one or the new one
  have hentry : ∀ k' t, (rt.insertEntry k (.ready s)).entry k' = some (.ready t) →
      rt.entry k' = some (.ready t) ∨ k' = k ∧ t = s := by
    intro k' t hk'
    change (rt.sessions.insert k _).lookup k' = _ at hk'
    rw [HashMap.lookup_insert_eq_ite] at hk'
    split_ifs at hk' with hkk
    · exact .inr ⟨hkk, by simpa using hk'.symm⟩
    · exact .inl hk'
  refine { h with
    ready_lt := fun k' t hk' => ?_
    ready_key := fun k' t hk' => ?_
    ready_recv := fun k' t hk' => ?_
    retired_entry := fun t ht k' hk' => ?_ }
  · rcases hentry k' t hk' with hold | ⟨-, rfl⟩
    · exact h.ready_lt k' t hold
    · exact hlt
  · rcases hentry k' t hk' with hold | ⟨rfl, rfl⟩
    · exact h.ready_key k' t hold
    · exact hkey
  · rcases hentry k' t hk' with hold | ⟨-, rfl⟩
    · exact h.ready_recv k' t hold
    · exact .inl hrunning
  · rcases hentry k' t hk' with hold | ⟨-, rfl⟩
    · exact h.retired_entry t ht k' hold
    · rw [h.retired_cancelled t ht] at hlive
      cases hlive

theorem cancel (h : SessionInv rt) (s : SessionId) : SessionInv (rt.cancel s) :=
  h.of_frame_update rfl rfl rfl ⟨rfl, fun _ => rfl, id, fun _ => rfl⟩ (fun _ _ hk => hk)
    (fun k hk => h.ready_recv k s hk) fun _ hs => .inl hs

theorem abortRecv (h : SessionInv rt) (hs : rt.Retired s) : SessionInv (rt.abortRecv s) := by
  refine h.of_frame_update rfl rfl rfl ⟨rfl, id, fun _ => ?_, fun _ => h.retired_cancelled s hs⟩
    (fun _ _ hk => hk) (fun k hk => absurd hk (h.retired_entry s hs k)) fun _ ht => .inl ht
  split_ifs <;> simp

/-- A creation moves on; `task` may name a session of the creation's specification. -/
theorem setTask (h : SessionInv rt) {c : ℕ} {task : CreateTask}
    (hlt : ∀ s, task.session? = some s → s < rt.numSessions)
    (hspec : ∀ s, task.session? = some s → (rt.heap s).spec = (rt.creations c).spec)
    (hstarted : ∀ s, task = .succeeded s → (rt.heap s).recvTask ≠ .starting) :
    SessionInv (rt.setTask c task) := by
  refine { h with
    task_lt := fun e s he => ?_
    task_spec := fun e s he => ?_
    task_started := fun e s he => ?_ }
  · rcases eq_or_ne e c with rfl | hec
    · exact hlt s (by simpa [UdpRuntime.setTask] using he)
    · exact h.task_lt e s (by simpa [UdpRuntime.setTask, hec] using he)
  · rcases eq_or_ne e c with rfl | hec
    · simpa [UdpRuntime.setTask] using hspec s (by simpa [UdpRuntime.setTask] using he)
    · simpa [UdpRuntime.setTask, hec] using
        h.task_spec e s (by simpa [UdpRuntime.setTask, hec] using he)
  · rcases eq_or_ne e c with rfl | hec
    · exact hstarted s (by simpa [UdpRuntime.setTask] using he)
    · exact h.task_started e s (by simpa [UdpRuntime.setTask, hec] using he)

/-- A session that nothing refers to yet is created. -/
theorem newSession (h : SessionInv rt) (spec : UdpSessionSpec) (outbound : UdpOutbound)
    (now : ℕ) : SessionInv { rt with
      heap := Function.update rt.heap rt.numSessions ⟨spec, outbound, now, false, .starting⟩
      numSessions := rt.numSessions + 1 } := by
  have hold : ∀ t < rt.numSessions, Function.update rt.heap rt.numSessions
      ⟨spec, outbound, now, false, .starting⟩ t = rt.heap t :=
    fun t ht => Function.update_of_ne ht.ne _ _
  refine ⟨fun c t hc => Nat.lt_succ_of_lt (h.task_lt c t hc), fun c t hc => ?_, fun c t hc => ?_,
    fun k t hk => Nat.lt_succ_of_lt (h.ready_lt k t hk), fun k t hk => ?_, fun k t hk => ?_,
    fun t ht => Nat.lt_succ_of_lt (h.retired_lt t ht), fun t ht => ?_, h.retired_entry,
    fun t ht => ?_⟩
  · simp only [hold t (h.task_lt c t hc)]
    exact h.task_spec c t hc
  · simp only [hold t (h.task_lt c t (by rw [hc]; rfl))]
    exact h.task_started c t hc
  · simp only [hold t (h.ready_lt k t hk)]
    exact h.ready_key k t hk
  · simp only [hold t (h.ready_lt k t hk)]
    exact h.ready_recv k t hk
  · simp only [hold t (h.retired_lt t ht)]
    exact h.retired_cancelled t ht
  · rcases eq_or_ne t rt.numSessions with rfl | hne
    · simp [RecvTask.Ended] at ht
    · simp only [Function.update_of_ne hne] at ht ⊢
      exact h.ended_cancelled t ht

/-- A receive task passes the removal of its entry. -/
theorem recvFinish (h : SessionInv rt) (hrecv : (rt.heap s).recvTask = .exited)
    (hentry : ∀ k, rt.entry k ≠ some (.ready s)) : SessionInv (rt.setRecv s .finished) := by
  have hcancelled := h.ended_cancelled s (by simp [hrecv, RecvTask.Ended])
  exact h.of_frame_update rfl rfl rfl ⟨rfl, id, by simp, fun _ => hcancelled⟩
    (fun _ _ hk => hk) (fun k hk => absurd hk (hentry k)) fun _ ht => .inl ht

/-- A creation with an unused number is spawned. -/
theorem newCreation (h : SessionInv rt) (spec : UdpSessionSpec) : SessionInv { rt with
      creations := Function.update rt.creations rt.numCreations ⟨spec, .connecting⟩
      numCreations := rt.numCreations + 1 } := by
  have hold : ∀ c s, (Function.update rt.creations rt.numCreations ⟨spec, .connecting⟩ c
      ).task.session? = some s → c ≠ rt.numCreations := by
    rintro c s hc rfl
    simp [CreateTask.session?] at hc
  refine { h with
    task_lt := fun c s hc => ?_
    task_spec := fun c s hc => ?_
    task_started := fun c s hc => ?_ }
  · simp only [Function.update_of_ne (hold c s hc)] at hc
    exact h.task_lt c s hc
  · simp only [Function.update_of_ne (hold c s hc)] at hc ⊢
    exact h.task_spec c s hc
  · have hne := hold c s (congrArg CreateTask.session? hc)
    simp only [Function.update_of_ne hne] at hc
    exact h.task_started c s hc

/-- The sessions removed by a garbage collection pass are cancelled and out of the map. -/
theorem removedFrom (h : SessionInv rt) {now g : ℕ} {l : List (UdpSessionKey × SessionId)}
    {removed : List SessionId} (hr : RemovedFrom rt now l rt' removed) :
    SessionInv (rt'.setGc g (.aborting removed)) := by
  have hready : ∀ k s, rt'.entry k = some (.ready s) → rt.entry k = some (.ready s) := by
    intro k s hk
    rcases hr.entry k with hk' | ⟨hk', -⟩
    · rw [← hk', hk]
    · rw [hk'] at hk
      cases hk
  have hcreations : rt'.creations = rt.creations := by rw [hr.eq]
  have hnum : rt'.numSessions = rt.numSessions := by rw [hr.eq]
  refine h.of_frame hcreations hnum (fun s => ?_) (fun k s hk => ⟨hready k s hk, ?_⟩)
    fun s hs => ?_
  · change SessionStep _ (rt'.heap s)
    rw [hr.heap]
    split_ifs
    · exact ⟨rfl, fun _ => rfl, id, fun _ => rfl⟩
    · exact h.sessionStep_self s
  · change (rt'.heap s).recvTask = _ ∨ (rt'.heap s).recvTask = _
    have hrecv : (rt'.heap s).recvTask = (rt.heap s).recvTask := by
      rw [hr.heap]
      split_ifs <;> rfl
    rw [hrecv]
    exact h.ready_recv k s (hready k s hk)
  · by_cases hmem : s ∈ removed
    · right
      obtain ⟨k, hk, hnone, -⟩ := hr.mem s hmem
      refine ⟨h.ready_lt k s hk, ?_, fun k' hk' => ?_⟩
      · change (rt'.heap s).cancelled = true
        rw [hr.heap, if_pos hmem]
      · have hkk : k' = k := by
          rw [← h.ready_key k s hk, ← h.ready_key k' s (hready k' s hk')]
        subst hkk
        change rt'.entry k' = _ at hk'
        rw [hnone] at hk'
        cases hk'
    · left
      have hs' : rt'.Retired s := hs.of_setGc fun l hl hmem' => by
        cases hl
        exact absurd hmem' hmem
      rw [hr.eq] at hs'
      exact hs'

/-- The sessions cleared by a `shutdown` are cancelled. -/
theorem drain (h : SessionInv rt) (d : ℕ) : SessionInv (rt.drain d) := by
  obtain ⟨calls, heq, hwoken, -⟩ := rt.drain_eq d
  rw [heq]
  refine h.of_frame rfl rfl (fun s => ?_) (fun k s hk => ?_) fun s hs => ?_
  · simp only
    split_ifs
    · exact ⟨rfl, fun _ => rfl, id, fun _ => rfl⟩
    · exact h.sessionStep_self s
  · simp [entry] at hk
  · by_cases hmem : s ∈ rt.readyEntries.map Prod.snd
    · right
      obtain ⟨⟨k, s⟩, hks, rfl⟩ := List.mem_map.mp hmem
      refine ⟨h.ready_lt k s ((mem_readyEntries rt).mp hks), ?_, fun k' hk' => ?_⟩
      · simp only [hmem, if_true]
      · simp [entry] at hk'
    · left
      have hs' : ({ rt with calls }.setShutdown d
          (.reaping true (rt.readyEntries.map Prod.snd))).Retired s := hs
      have hs'' : Retired { rt with calls } s := hs'.of_setShutdown fun ok l hl hmem' => by
        cases hl
        exact absurd hmem' hmem
      exact hs''.of_calls fun j => ((hwoken j).pc_eq_iff (by simp)).mp

/-- **Map and sessions.** Every step keeps `SessionInv`, given the owners of creations. -/
theorem step {a : Action} (h : SessionInv rt) (hcreation : CreationInv rt)
    (hs : rt.step a = some rt') : SessionInv rt' := by
  cases Effect.of_step hs with
  | call spec listener =>
    refine h.of_frame_heap rfl rfl rfl (fun _ _ hk => hk) fun t ht => ht.of_calls fun j hj => ?_
    rcases eq_or_ne j rt.numCalls with rfl | hne
    · simp at hj
    · simpa [hne] using hj
  | check i pc hi hpc =>
    refine h.setPc fun s => ?_
    rcases hpc with rfl | rfl <;> simp
  | refuse | reuse | retry | wait | joined | joinFailed | abort => exact h.setPc (by simp)
  | reserve i hi hopen hk =>
    have hnew := (h.newCreation (rt.calls i).spec).insertCreating (rt.calls i).spec.key
      rt.numNotifies
    have hpc : ∀ s, CallPc.joining rt.numNotifies rt.numCreations ≠ .abortingRecv s := by simp
    exact { hnew.setPc (i := i) hpc with }
  | publishCancelled i n c s hi hclosed htask =>
    have hlt := h.task_lt c s (by rw [htask]; rfl)
    have hc := ((h.removeEntry (rt.calls i).spec.key).notifyWaiters n).cancel s
    refine hc.setPc_abortingRecv hlt (by simp [UdpRuntime.cancel]) fun k hk => ?_
    -- the session is registered under its own key only, and that entry is gone
    change (rt.sessions.erase (rt.calls i).spec.key).lookup k = _ at hk
    rw [HashMap.lookup_erase_eq_ite] at hk
    split_ifs at hk with hkey
    refine hkey ?_
    rw [← h.ready_key k s hk, UdpSession.key, h.task_spec c s (by rw [htask]; rfl),
      hcreation.creation_spec i c (by rw [hi]; rfl)]
  | publishError i n c e hi htask =>
    exact ((h.removeEntry _).notifyWaiters n).setPc (by simp)
  | publishReady i n c s hi hopen htask hlive =>
    have hsome : (rt.creations c).task.session? = some s := by rw [htask]; rfl
    have hkey : (rt.heap s).key = (rt.calls i).spec.key := by
      rw [UdpSession.key, h.task_spec c s hsome, hcreation.creation_spec i c (by rw [hi]; rfl)]
    have hinsert := h.insertReady (h.task_lt c s hsome) hkey hlive (h.task_started c s htask)
    exact (hinsert.notifyWaiters n).setPc (by simp)
  | remove i n hi => exact (h.removeEntry _).setPc (by simp)
  | notify i n hi => exact (h.notifyWaiters n).setPc (by simp)
  | abortRecv i s hi => exact (h.abortRecv (.inl ⟨i, hi⟩)).setPc (by simp)
  | connectFailed c outcome task hc htask =>
    rcases htask with rfl | rfl
    · exact h.setTask (by simp [CreateTask.session?]) (by simp [CreateTask.session?]) (by simp)
    · exact h.setTask (by simp [CreateTask.session?]) (by simp [CreateTask.session?]) (by simp)
  | connected c outbound now hc hout =>
    have hnew := h.newSession (rt.creations c).spec outbound now
    have hsession : ∀ t, (CreateTask.awaitingReady rt.numSessions).session? = some t →
        t = rt.numSessions := fun t ht => (Option.some.inj ht).symm
    refine hnew.setTask (fun t ht => ?_) (fun t ht => ?_) (by simp)
    · rw [hsession t ht]
      exact Nat.lt_succ_self _
    · rw [hsession t ht]
      simp
  | ready c s hc hstart =>
    have hsome : (rt.creations c).task.session? = some s := by rw [hc]; rfl
    have hsession : ∀ t, (CreateTask.succeeded s).session? = some t → t = s :=
      fun t ht => (Option.some.inj ht).symm
    refine h.setTask (fun t ht => ?_) (fun t ht => ?_) (fun t ht => ?_)
    · exact hsession t ht ▸ h.task_lt c s hsome
    · exact hsession t ht ▸ h.task_spec c s hsome
    · cases ht
      exact hstart
  | recvStart s hlt hrecv =>
    refine h.of_frame_update rfl rfl rfl ⟨rfl, id, fun _ => ?_, fun hend => ?_⟩
      (fun _ _ hk => hk) (fun _ _ => .inl rfl) fun _ ht => .inl ht
    · simp
    · simp [RecvTask.Ended] at hend
  | recvExit s hrecv =>
    have hexit : ((rt.setRecv s .exited).cancel s).heap =
        Function.update rt.heap s { rt.heap s with recvTask := .exited, cancelled := true } := by
      simp [UdpRuntime.cancel, setRecv]
    exact h.of_frame_update rfl rfl hexit ⟨rfl, fun _ => rfl, by simp, fun _ => rfl⟩
      (fun _ _ hk => hk) (fun _ _ => .inr rfl) fun _ ht => .inl ht
  | recvRemove s hrecv hk =>
    refine (h.removeEntry (rt.heap s).key).recvFinish hrecv fun k' hk' => ?_
    change (rt.sessions.erase (rt.heap s).key).lookup k' = _ at hk'
    rw [HashMap.lookup_erase_eq_ite] at hk'
    split_ifs at hk' with hkey
    exact hkey (h.ready_key k' s hk').symm
  | recvFinish s hrecv hk =>
    refine h.recvFinish hrecv fun k' hk' => ?_
    rw [h.ready_key k' s hk'] at hk
    exact hk hk'
  | touch s now =>
    exact h.of_frame_update rfl rfl rfl ⟨rfl, id, id, h.ended_cancelled s⟩ (fun _ _ hk => hk)
      (fun k hk => h.ready_recv k s hk) fun _ ht => .inl ht
  | gcSnapshot now => exact { h.setGc (g := rt.numGcs) (by simp) with }
  | gcCheck g | gcDone g => exact h.setGc (by simp)
  | gcRemove g now expired hg => exact h.removedFrom (removeExpired_spec now expired rt)
  | gcAbort g s rest hg =>
    refine (h.abortRecv (.inr (.inl ⟨g, _, hg, List.mem_cons_self⟩))).setGc ?_
    intro t l hl hmem
    cases hl
    exact ⟨_, hg, List.mem_cons_of_mem _ hmem⟩
  | shutdown => exact { h.setShutdown (d := rt.numShutdowns) (by simp) with }
  | shutdownDrain d hd => exact h.drain d
  | reapAbort d ok s rest hd =>
    refine (h.abortRecv (.inr (.inr ⟨d, ok, _, hd, List.mem_cons_self⟩))).setShutdown ?_
    intro t ok' l hl hmem
    cases hl
    exact ⟨_, _, hd, List.mem_cons_of_mem _ hmem⟩
  | reapJoin d ok s rest hd =>
    refine h.setShutdown ?_
    intro t ok' l hl hmem
    cases hl
    exact ⟨_, _, hd, List.mem_cons_of_mem _ hmem⟩
  | shutdownReturn d ok hd => exact h.setShutdown (by simp)

end SessionInv

theorem sessionInv_new (timeoutSecs : ℕ) : SessionInv (new timeoutSecs) := by
  have hretired : ∀ s, ¬ (new timeoutSecs).Retired s := by simp [Retired, new]
  refine ⟨fun _ _ h => ?_, fun _ _ h => ?_, fun _ _ h => ?_, fun _ _ h => ?_, fun _ _ h => ?_,
    fun _ _ h => ?_, fun s h => absurd h (hretired s), fun s h => absurd h (hretired s),
    fun s h => absurd h (hretired s), fun _ h => ?_⟩
  iterate 6 cases h
  simp [new, RecvTask.Ended] at h

/-! ### Live sessions are tracked -/

theorem cancel_heap (s t : SessionId) : ((rt.cancel s).heap t).spec = (rt.heap t).spec ∧
    (((rt.cancel s).heap t).cancelled = false → (rt.heap t).cancelled = false) := by
  rcases eq_or_ne t s with rfl | hts
  · simp [cancel]
  · simp [cancel, hts]

theorem setRecv_heap (s : SessionId) (task : RecvTask) (t : SessionId) :
    ((rt.setRecv s task).heap t).spec = (rt.heap t).spec ∧
    (((rt.setRecv s task).heap t).cancelled = false → (rt.heap t).cancelled = false) := by
  rcases eq_or_ne t s with rfl | hts
  · simp [setRecv]
  · simp [setRecv, hts]

namespace Tracked

/-- Tracking after a step that creates no session: a session that stays alive keeps its entry or
its call, or is registered. -/
theorem of_frame (h : Tracked rt) (hnum : rt'.numSessions = rt.numSessions)
    (hheap : ∀ s, (rt'.heap s).spec = (rt.heap s).spec ∧
      ((rt'.heap s).cancelled = false → (rt.heap s).cancelled = false))
    (hentry : ∀ s, (rt'.heap s).cancelled = false → rt.entry (rt.heap s).key = some (.ready s) →
      rt'.entry (rt.heap s).key = some (.ready s))
    (hflight : ∀ s, (rt'.heap s).cancelled = false → rt.InFlight s →
      rt'.InFlight s ∨ rt'.entry (rt.heap s).key = some (.ready s)) : Tracked rt' := by
  intro s hs hlive
  rw [hnum] at hs
  rw [UdpSession.key, (hheap s).1]
  rcases h s hs ((hheap s).2 hlive) with hready | hin
  · exact .inl (hentry s hlive hready)
  · exact (hflight s hlive hin).symm

/-- Tracking after a step that leaves sessions, entries and creations as they are. -/
theorem of_frame_calls (h : Tracked rt) (hnum : rt'.numSessions = rt.numSessions)
    (hheap : ∀ s, (rt'.heap s).spec = (rt.heap s).spec ∧
      ((rt'.heap s).cancelled = false → (rt.heap s).cancelled = false))
    (hentry : ∀ k, rt'.entry k = rt.entry k) (hcreations : rt'.creations = rt.creations)
    (hcalls : ∀ i c s, (rt.calls i).pc.creation? = some c →
      (rt.creations c).task.session? = some s → (rt'.calls i).pc.creation? = some c) :
    Tracked rt' := by
  refine h.of_frame hnum hheap (fun s _ hk => ?_) fun s _ hin => ?_
  · rw [hentry, hk]
  · obtain ⟨i, c, hi, hc⟩ := hin
    exact .inl ⟨i, c, hcalls i c s hi hc, by rw [hcreations, hc]⟩

/-- A call moves on and keeps the session it is to publish. -/
theorem setPc (h : Tracked rt) {pc : CallPc}
    (hkeep : ∀ c s, (rt.calls i).pc.creation? = some c →
      (rt.creations c).task.session? = some s → pc.creation? = some c) :
    Tracked (rt.setPc i pc) := by
  refine h.of_frame_calls rfl (fun _ => ⟨rfl, id⟩) (fun _ => rfl) rfl fun j c s hj hc => ?_
  rw [pc_setPc]
  split_ifs with hji
  · subst hji
    exact hkeep c s hj hc
  · exact hj

theorem setPc_none (h : Tracked rt) {pc : CallPc} (hi : (rt.calls i).pc.creation? = none) :
    Tracked (rt.setPc i pc) := by
  refine h.setPc fun c s hc _ => ?_
  rw [hi] at hc
  cases hc

theorem notifyWaiters (h : Tracked rt) (n : NotifyId) : Tracked (rt.notifyWaiters n) := by
  refine h.of_frame_calls rfl (fun _ => ⟨rfl, id⟩) (fun _ => rfl) rfl fun j c s hj hc => ?_
  exact (Call.creation?_wake n _).trans hj

/-- An entry without a session is replaced or removed. -/
theorem setEntries (h : Tracked rt) {sessions : HashMap UdpSessionKey UdpSessionEntry}
    (hk : ∀ s, rt.entry k ≠ some (.ready s))
    (hne : ∀ k', k' ≠ k → sessions.lookup k' = rt.entry k') : Tracked { rt with sessions } := by
  refine h.of_frame rfl (fun _ => ⟨rfl, id⟩) (fun s _ hs => ?_) fun s _ hin => .inl hin
  have hsk : (rt.heap s).key ≠ k := by
    rintro rfl
    exact hk s hs
  exact (hne _ hsk).trans hs

/-- A call publishes its creation: the map changes at its key only, and the session created is
registered there or cancelled. -/
theorem publish (h : Tracked rt) (howner : OwnerInv rt) (hcreation : CreationInv rt)
    (hsession : SessionInv rt) {c : ℕ} {pc : CallPc}
    (sessions : HashMap UdpSessionKey UdpSessionEntry) (heap : SessionId → UdpSession)
    (hi : (rt.calls i).pc = .publishing n c)
    (hheap : ∀ s, (heap s).spec = (rt.heap s).spec ∧
      ((heap s).cancelled = false → (rt.heap s).cancelled = false))
    (hne : ∀ k, k ≠ (rt.calls i).spec.key → sessions.lookup k = rt.entry k)
    (hdone : ∀ s, (rt.creations c).task.session? = some s →
      (heap s).cancelled = true ∨ sessions.lookup (rt.calls i).spec.key = some (.ready s)) :
    Tracked (({ rt with sessions, heap }.notifyWaiters n).setPc i pc) := by
  have hown : (rt.calls i).pc.owned? = some n := by rw [hi]; rfl
  have hcreate : (rt.calls i).pc.creation? = some c := by rw [hi]; rfl
  refine h.of_frame rfl hheap (fun s _ hs => ?_) fun s hlive hin => ?_
  · have hsk : (rt.heap s).key ≠ (rt.calls i).spec.key := by
      intro hsk
      rw [hsk] at hs
      exact howner.entry_ne_ready hown s hs
    exact (hne _ hsk).trans hs
  · obtain ⟨j, e, hj, he⟩ := hin
    rcases eq_or_ne j i with rfl | hji
    · right
      rw [hcreate, Option.some.injEq] at hj
      subst hj
      have hkey : (rt.heap s).key = (rt.calls j).spec.key := by
        rw [UdpSession.key, hsession.task_spec c s he, hcreation.creation_spec j c hcreate]
      rcases hdone s he with hc | hready
      · rw [show (heap s).cancelled = false from hlive] at hc
        cases hc
      · rw [hkey]
        exact hready
    · left
      refine ⟨j, e, ?_, he⟩
      rw [pc_setPc, if_neg hji]
      exact (Call.creation?_wake n _).trans hj

/-- A creation moves on and keeps its session. -/
theorem setTask (h : Tracked rt) {c : ℕ} {task : CreateTask}
    (hkeep : ∀ s, (rt.creations c).task.session? = some s → task.session? = some s) :
    Tracked (rt.setTask c task) := by
  refine h.of_frame rfl (fun _ => ⟨rfl, id⟩) (fun _ _ hk => hk) fun s _ hin => .inl ?_
  obtain ⟨j, e, hj, he⟩ := hin
  refine ⟨j, e, hj, ?_⟩
  rcases eq_or_ne e c with rfl | hec
  · simpa [UdpRuntime.setTask] using hkeep s he
  · simpa [UdpRuntime.setTask, hec] using he

/-- A creation begins, and has no session yet. -/
theorem newCreation (h : Tracked rt) (hfresh : (rt.creations rt.numCreations).task = .unused)
    (spec : UdpSessionSpec) (numNotifies : NotifyId) : Tracked { rt with
      numNotifies
      creations := Function.update rt.creations rt.numCreations ⟨spec, .connecting⟩
      numCreations := rt.numCreations + 1 } := by
  refine h.of_frame rfl (fun _ => ⟨rfl, id⟩) (fun _ _ hk => hk) fun s _ hin => .inl ?_
  obtain ⟨j, e, hj, he⟩ := hin
  refine ⟨j, e, hj, ?_⟩
  have hne : e ≠ rt.numCreations := by
    rintro rfl
    rw [hfresh] at he
    cases he
  simp only [Function.update_of_ne hne]
  exact he

/-- The session of a running creation is in flight from its first moment. -/
theorem connected (h : Tracked rt) (hcreation : CreationInv rt) {c : ℕ}
    (hc : (rt.creations c).task = .connecting) (outbound : UdpOutbound) (now : ℕ) :
    Tracked { rt.setTask c (.awaitingReady rt.numSessions) with
      heap := Function.update rt.heap rt.numSessions
        ⟨(rt.creations c).spec, outbound, now, false, .starting⟩
      numSessions := rt.numSessions + 1 } := by
  intro s hs hlive
  rcases eq_or_ne s rt.numSessions with rfl | hne
  · right
    obtain ⟨i, n, hi⟩ := hcreation.running_owner c (.inl hc)
    refine ⟨i, c, ?_, by simp [UdpRuntime.setTask, CreateTask.session?]⟩
    change (rt.calls i).pc.creation? = some c
    rw [hi]
    rfl
  · have hlt : s < rt.numSessions := by
      have hs' : s < rt.numSessions + 1 := hs
      omega
    have htask : Tracked (rt.setTask c (.awaitingReady rt.numSessions)) :=
      h.setTask (by simp [hc, CreateTask.session?])
    simp only [Function.update_of_ne hne] at hlive ⊢
    exact htask s hlt hlive

/-- A garbage collection pass cancels what it removes. -/
theorem removedFrom (h : Tracked rt) {now : ℕ} {l : List (UdpSessionKey × SessionId)}
    {removed : List SessionId} (hr : RemovedFrom rt now l rt' removed) : Tracked rt' := by
  have hnum : rt'.numSessions = rt.numSessions := by rw [hr.eq]
  refine h.of_frame hnum (fun s => ?_) (fun s hlive hk => ?_) fun s _ hin => .inl ?_
  · rw [hr.heap]
    split_ifs
    · exact ⟨rfl, fun hc => by cases hc⟩
    · exact ⟨rfl, id⟩
  · rcases hr.entry (rt.heap s).key with hk' | ⟨-, t, ht, hmem⟩
    · rw [hk', hk]
    · rw [hk] at ht
      cases ht
      rw [hr.heap, if_pos hmem] at hlive
      cases hlive
  · obtain ⟨j, c, hj, hc⟩ := hin
    rw [hr.eq]
    exact ⟨j, c, hj, hc⟩

/-- A cancelled session is removed. -/
theorem recvRemove (h : Tracked rt) {s : SessionId} (hcancelled : (rt.heap s).cancelled = true)
    (hk : rt.entry (rt.heap s).key = some (.ready s)) :
    Tracked ((rt.setRecv s .finished).removeEntry (rt.heap s).key) := by
  refine h.of_frame rfl (setRecv_heap s _) (fun t hlive hk' => ?_) fun _ _ hin => .inl hin
  -- a live session is not the one removed, so it has another key
  have hts : t ≠ s := by
    rintro rfl
    rw [(setRecv_heap t .finished t).2 hlive] at hcancelled
    cases hcancelled
  change (rt.sessions.erase (rt.heap s).key).lookup (rt.heap t).key = _
  rw [HashMap.lookup_erase_eq_ite, if_neg]
  · exact hk'
  · intro hkey
    rw [hkey, hk] at hk'
    exact hts (UdpSessionEntry.ready.inj (Option.some.inj hk')).symm

/-- A shutdown cancels what it removes. -/
theorem drain (h : Tracked rt) (d : ℕ) : Tracked (rt.drain d) := by
  obtain ⟨calls, heq, hwoken, -⟩ := rt.drain_eq d
  rw [heq]
  refine h.of_frame rfl (fun s => ?_) (fun s hlive hk => ?_) fun s _ hin => .inl ?_
  · simp only
    split_ifs
    · exact ⟨rfl, fun hc => by cases hc⟩
    · exact ⟨rfl, id⟩
  · have hmem : s ∈ rt.readyEntries.map Prod.snd :=
      List.mem_map.mpr ⟨_, (mem_readyEntries rt).mpr hk, rfl⟩
    simp only [hmem, if_true] at hlive
    cases hlive
  · obtain ⟨j, c, hj, hc⟩ := hin
    exact ⟨j, c, (hwoken j).creation?_eq.trans hj, hc⟩

/-- **Tracking.** Every step that aborts no owner of a creation keeps `Tracked`. -/
theorem step {a : Action} (h : Tracked rt) (ha : Harmless rt a) (howner : OwnerInv rt)
    (hcreation : CreationInv rt) (hsession : SessionInv rt) (hs : rt.step a = some rt') :
    Tracked rt' := by
  cases Effect.of_step hs with
  | call spec listener =>
    refine h.of_frame_calls rfl (fun _ => ⟨rfl, id⟩) (fun _ => rfl) rfl fun j c s hj _ => ?_
    have hne : j ≠ rt.numCalls := by
      rintro rfl
      rw [howner.fresh_call rt.numCalls le_rfl] at hj
      cases hj
    change (Function.update rt.calls rt.numCalls _ j).pc.creation? = _
    rw [Function.update_of_ne hne, hj]
  | check i pc hi | refuse i hi | reuse i s hi | wait i n hi | retry i n hi =>
    exact h.setPc_none (by rw [hi]; rfl)
  | reserve i hi hopen hk =>
    have hmap : Tracked (rt.insertEntry (rt.calls i).spec.key (.creating rt.numNotifies)) :=
      h.setEntries (k := (rt.calls i).spec.key) (by simp [hk]) fun k' hk' => by
        rw [HashMap.lookup_insert_eq_ite, if_neg hk']
    have hpc : Tracked ((rt.insertEntry (rt.calls i).spec.key (.creating rt.numNotifies)).setPc i
        (.joining rt.numNotifies rt.numCreations)) :=
      hmap.setPc_none (congrArg CallPc.creation? hi)
    exact hpc.newCreation (hcreation.fresh_creation rt.numCreations le_rfl) _ _
  | joined i n c hi htask =>
    refine h.setPc fun e s he _ => ?_
    rw [hi] at he
    exact he
  | joinFailed i n c hi htask =>
    refine h.setPc fun e s he hs => ?_
    rw [hi] at he
    cases he
    simp [htask, CreateTask.session?] at hs
  | publishCancelled i n c s hi hclosed htask =>
    refine h.publish howner hcreation hsession (rt.sessions.erase (rt.calls i).spec.key)
      (rt.cancel s).heap hi (cancel_heap s) (fun k hk => ?_) fun t ht => ?_
    · rw [HashMap.lookup_erase_eq_ite, if_neg hk]
    · rw [htask] at ht
      cases ht
      exact .inl (by simp [cancel])
  | publishError i n c e hi htask =>
    refine h.publish howner hcreation hsession (rt.sessions.erase (rt.calls i).spec.key) rt.heap hi
      (fun t => ⟨rfl, id⟩) (fun k hk => ?_) fun t ht => .inl (htask t ?_)
    · rw [HashMap.lookup_erase_eq_ite, if_neg hk]
    · exact hcreation.succeeded_of_publishing hi ht
  | publishReady i n c s hi hopen htask hlive =>
    refine h.publish howner hcreation hsession (rt.sessions.insert (rt.calls i).spec.key (.ready s))
      rt.heap hi (fun t => ⟨rfl, id⟩) (fun k hk => ?_) fun t ht => ?_
    · rw [HashMap.lookup_insert_eq_ite, if_neg hk]
    · rw [htask] at ht
      cases ht
      right
      rw [HashMap.lookup_insert_eq_ite, if_pos rfl]
  | remove i n hi =>
    have hown : (rt.calls i).pc.owned? = some n := by rw [hi]; rfl
    have hmap : Tracked (rt.removeEntry (rt.calls i).spec.key) :=
      h.setEntries (howner.entry_ne_ready hown) fun k' hk' => by
        rw [HashMap.lookup_erase_eq_ite, if_neg hk']
    exact hmap.setPc_none (congrArg CallPc.creation? hi)
  | notify i n hi =>
    refine (h.notifyWaiters n).setPc_none ?_
    change ((rt.calls i).wake n).pc.creation? = none
    rw [Call.creation?_wake, hi]
    rfl
  | abortRecv i s hi =>
    have hrecv : Tracked (rt.abortRecv s) :=
      h.of_frame_calls rfl (setRecv_heap s _) (fun _ => rfl) rfl fun _ _ _ hi _ => hi
    exact hrecv.setPc_none (congrArg CallPc.creation? hi)
  | abort i hi => exact h.setPc_none (ha i rfl)
  | connectFailed c outcome task hc => exact h.setTask (by simp [hc, CreateTask.session?])
  | connected c outbound now hc => exact h.connected hcreation hc outbound now
  | ready c s hc => exact h.setTask (by simp [hc, CreateTask.session?])
  | recvStart s | recvFinish s | gcAbort g s | reapAbort d ok s =>
    exact h.of_frame_calls rfl (setRecv_heap s _) (fun _ => rfl) rfl fun _ _ _ hi _ => hi
  | recvExit s hrecv =>
    have hrun : Tracked (rt.setRecv s .exited) :=
      h.of_frame_calls rfl (setRecv_heap s _) (fun _ => rfl) rfl fun _ _ _ hi _ => hi
    exact hrun.of_frame_calls rfl (cancel_heap s) (fun _ => rfl) rfl fun _ _ _ hi _ => hi
  | recvRemove s hrecv hk =>
    exact h.recvRemove (hsession.ended_cancelled s (by simp [hrecv, RecvTask.Ended])) hk
  | touch s now =>
    refine h.of_frame_calls rfl (fun t => ?_) (fun _ => rfl) rfl fun _ _ _ hi _ => hi
    rcases eq_or_ne t s with rfl | hts
    · simp
    · simp [hts]
  | gcSnapshot | gcCheck | gcDone | shutdown | reapJoin | shutdownReturn =>
    exact h.of_frame_calls rfl (fun _ => ⟨rfl, id⟩) (fun _ => rfl) rfl fun _ _ _ hi _ => hi
  | gcRemove g now expired hg =>
    have hremoved := h.removedFrom (removeExpired_spec now expired rt)
    exact hremoved.of_frame_calls rfl (fun _ => ⟨rfl, id⟩) (fun _ => rfl) rfl
      fun _ _ _ hi _ => hi
  | shutdownDrain d hd => exact h.drain d

end Tracked

/-! ### Removal of entries -/

/-- The step `a` ends the session `s` registered under `k`: the receive task of `s` itself, a
garbage collection pass that has found exactly this entry expired and finds it expired again, or
a `shutdown`. -/
def Removes (rt : UdpRuntime) (a : Action) (k : UdpSessionKey) (s : SessionId) : Prop :=
  a = .recvRemove s ∨
  (∃ g now expired, a = .gcRemove g ∧ rt.gcs g = .checking now [] expired ∧ (k, s) ∈ expired ∧
    rt.expired now s = true) ∨
  ∃ d, a = .shutdownDrain d

/-- A `Ready` entry is only removed by the end of its own session. -/
theorem removes_of_step {a : Action} (howner : OwnerInv rt) (hsession : SessionInv rt)
    (hs : rt.step a = some rt') (hk : rt.entry k = some (.ready s))
    (hne : rt'.entry k ≠ some (.ready s)) : rt.Removes a k s := by
  -- the key of an owner has no `Ready` entry, so a change at that key leaves this one
  have hkey : ∀ i n, (rt.calls i).pc.owned? = some n → k ≠ (rt.calls i).spec.key := by
    rintro i n hi rfl
    exact howner.entry_ne_ready hi s hk
  cases Effect.of_step hs with
  | reserve i hi hopen hnone =>
    refine absurd ?_ hne
    change (rt.sessions.insert _ _).lookup k = _
    rw [HashMap.lookup_insert_eq_ite, if_neg]
    · exact hk
    · rintro rfl
      rw [hnone] at hk
      cases hk
  | publishCancelled i n c t hi | publishError i n c e hi | remove i n hi =>
    refine absurd ?_ hne
    change (rt.sessions.erase _).lookup k = _
    rw [HashMap.lookup_erase_eq_ite, if_neg (hkey i n (by rw [hi]; rfl))]
    exact hk
  | publishReady i n c t hi =>
    refine absurd ?_ hne
    change (rt.sessions.insert _ _).lookup k = _
    rw [HashMap.lookup_insert_eq_ite, if_neg (hkey i n (by rw [hi]; rfl))]
    exact hk
  | recvRemove t hrecv ht =>
    left
    change (rt.sessions.erase _).lookup k ≠ _ at hne
    rw [HashMap.lookup_erase_eq_ite] at hne
    split_ifs at hne with hkt
    · rw [hkt, ht] at hk
      cases hk
      rfl
    · exact absurd hk hne
  | gcRemove g now expired hg =>
    right
    left
    have hr := removeExpired_spec now expired rt
    rcases hr.entry k with hk' | ⟨-, t, ht, hmem⟩
    · exact absurd (hk'.trans hk) hne
    · rw [hk] at ht
      cases ht
      obtain ⟨k', hk', -, hl, hexpired⟩ := hr.mem s hmem
      have hkk : k' = k := by rw [← hsession.ready_key k' s hk', ← hsession.ready_key k s hk]
      subst hkk
      exact ⟨g, now, expired, rfl, hg, hl, hexpired⟩
  | shutdownDrain d => exact .inr (.inr ⟨d, rfl⟩)
  | _ => exact absurd hk hne

/-! ### Whole runs -/

/-- The invariants of a run that aborts no owner of a creation. -/
theorem invariants_of_steps {timeoutSecs : ℕ} (h : Steps step Harmless (new timeoutSecs) rt) :
    OwnerInv rt ∧ CreationInv rt ∧ SessionInv rt ∧ Tracked rt := by
  refine h.invariant (I := fun t => OwnerInv t ∧ CreationInv t ∧ SessionInv t ∧ Tracked t) ?_ ?_
  · refine ⟨ownerInv_new timeoutSecs, creationInv_new timeoutSecs, sessionInv_new timeoutSecs, ?_⟩
    intro s hs
    cases hs
  · rintro t a u ⟨howner, hcreation, hsession, htracked⟩ ha hs
    exact ⟨howner.step hs, hcreation.step ha howner hs, hsession.step hcreation hs,
      htracked.step ha howner hcreation hsession hs⟩

/-- The pending removal of an ended receive task takes away its own entry and no other. -/
theorem recvRemove_own_entry (hrecv : (rt.heap s).recvTask = .exited)
    (hkey : (rt.heap s).key = k) (hk : rt.entry k = some (.ready s)) :
    ∃ rt', rt.step (.recvRemove s) = some rt' ∧ rt'.entry k = none ∧
      ∀ k', k' ≠ k → rt'.entry k' = rt.entry k' := by
  subst hkey
  refine ⟨(rt.setRecv s .finished).removeEntry (rt.heap s).key, ?_, ?_, fun k' hk' => ?_⟩
  · simp [step, hrecv, UdpRuntime.recvRemove, hk]
  · change (rt.sessions.erase _).lookup _ = none
    rw [HashMap.lookup_erase_eq_ite, if_pos rfl]
  · change (rt.sessions.erase _).lookup _ = _
    rw [HashMap.lookup_erase_eq_ite, if_neg hk']

/-- **No zombie, no untracked session.** In every run in which no call is aborted: a registered
session whose receive loop has ended is cancelled, and the next step of its receive task removes
exactly its entry; every session that is not cancelled is registered under its key or belongs to
a call in flight; and a registered session is only removed by its own receive task, by a garbage
collection pass that found this very session expired and finds it so again, or by `shutdown`. -/
theorem no_zombie_no_untracked {timeoutSecs : ℕ}
    (h : Steps step NoAbort (new timeoutSecs) rt) :
    (∀ k s, rt.entry k = some (.ready s) → (rt.heap s).recvTask.Ended →
      (rt.heap s).cancelled = true ∧ ∃ rt', rt.step (.recvRemove s) = some rt' ∧
        rt'.entry k = none ∧ ∀ k', k' ≠ k → rt'.entry k' = rt.entry k') ∧
    (∀ s < rt.numSessions, (rt.heap s).cancelled = false →
      rt.entry (rt.heap s).key = some (.ready s) ∨ rt.InFlight s) ∧
    ∀ a rt', rt.step a = some rt' → ∀ k s, rt.entry k = some (.ready s) →
      rt'.entry k ≠ some (.ready s) → rt.Removes a k s := by
  obtain ⟨howner, -, hsession, htracked⟩ :=
    invariants_of_steps (h.mono fun _ _ => NoAbort.harmless)
  refine ⟨fun k s hk hended => ⟨hsession.ended_cancelled s hended, ?_⟩, htracked,
    fun a rt' hs k s => removes_of_step howner hsession hs⟩
  refine recvRemove_own_entry ?_ (hsession.ready_key k s hk) hk
  exact (hsession.ready_recv k s hk).resolve_left hended.2

/-- A call creates and registers a session whose receive loop then ends. -/
def createAndExit (spec : UdpSessionSpec) : List Action :=
  [.call spec false, .advance 0, .advance 0, .connect 0 (.connected .direct 0), .recvStart 0,
    .ready 0, .advance 0, .advance 0, .recvExit 0]

theorem no_zombie_no_untracked_createAndExit : ∃ rt, Steps step NoAbort (new 60) rt ∧
    rt.entry (rt.heap 0).key = some (.ready 0) ∧ (rt.heap 0).recvTask = .exited ∧
    (rt.heap 0).cancelled = true := by
  obtain ⟨rt, hrt, hk, hrecv⟩ : ∃ rt, Steps step NoAbort (new 60) rt ∧
      (rt.entry (rt.heap 0).key = some (.ready 0) ∧ (rt.heap 0).recvTask = .exited) :=
    exists_steps_of_run (l := createAndExit default) (by simp [createAndExit, NoAbort])
      (by decide +kernel)
  exact ⟨rt, hrt, hk, hrecv,
    ((no_zombie_no_untracked hrt).1 _ 0 hk (by simp [hrecv, RecvTask.Ended])).1⟩

end UdpRuntime

end XtpRs.Udp
