import XtpRs.Udp.Accounting

/-!
# Each payload of a flow once and in order

When packets and reaps are handled one at a time, every payload of a flow is forwarded exactly
once and in the order of arrival, and a flow never has both a `Ready` session and a pending entry.
The runs considered are those in which a packet or a reap is taken in only when every earlier task
has ended, and in which the runtime is not shut down; the steps of the runtime, the endings of
sessions among them, are interleaved at will.

## Main definitions

* `UdpLoop.Serial`: the condition on a step.
* `UdpLoop.hand`, `UdpLoop.upcoming`: the payloads of a key that a task is about to forward or to
  put back, and the one it has yet to decide about.
* `UdpLoop.SerialInv`: the joint invariant of session map and pending map.

## Main results

* `UdpLoop.SerialInv.step`.
* `UdpLoop.fifo_exactly_once`: the statement about whole runs.
-/

namespace XtpRs.Udp

open Lib Sniff

/-! ### Calls and `Ready` entries across a step of the runtime -/

/-- The call has not begun or has returned. -/
def CallPc.Ended (pc : CallPc) : Prop :=
  pc = .idle ∨ ∃ r, pc = .returned r

namespace UdpRuntime

variable {rt rt' : UdpRuntime} {i : ℕ}

/-- A step keeps the specifications of calls, and calls that have ended. -/
def KeepsCalls (rt rt' : UdpRuntime) : Prop :=
  ∀ i, (rt'.calls i).spec = (rt.calls i).spec ∧
    ((rt.calls i).pc.Ended → (rt'.calls i).pc = (rt.calls i).pc)

theorem KeepsCalls.refl (rt : UdpRuntime) : KeepsCalls rt rt := fun _ => ⟨rfl, fun _ => rfl⟩

theorem keepsCalls_setPc {pc : CallPc} (hi : ¬ (rt.calls i).pc.Ended) :
    KeepsCalls rt (rt.setPc i pc) := by
  intro j
  refine ⟨spec_setPc rt i j pc, fun hj => ?_⟩
  rw [pc_setPc, if_neg]
  rintro rfl
  exact hi hj

theorem keepsCalls_notifyWaiters (rt : UdpRuntime) (n : NotifyId) :
    KeepsCalls rt (rt.notifyWaiters n) := by
  intro j
  refine ⟨Call.spec_wake n _, fun hj => ?_⟩
  refine (Call.pc_wake n _).trans (if_neg ?_)
  rintro hwait
  rw [hwait] at hj
  rcases hj with hj | ⟨r, hj⟩ <;> cases hj

theorem KeepsCalls.trans {rt'' : UdpRuntime} (h : KeepsCalls rt rt') (h' : KeepsCalls rt' rt'') :
    KeepsCalls rt rt'' := by
  intro j
  obtain ⟨hspec, hpc⟩ := h j
  obtain ⟨hspec', hpc'⟩ := h' j
  refine ⟨hspec'.trans hspec, fun hj => ?_⟩
  have hpcj := hpc hj
  rw [hpc' (by rw [hpcj]; exact hj), hpcj]

/-- A call gives up its entry: the waiters are notified and the call returns. -/
theorem keepsCalls_release {n : NotifyId} {pc : CallPc}
    {sessions : HashMap UdpSessionKey UdpSessionEntry} {heap : SessionId → UdpSession}
    (hi : ¬ (rt.calls i).pc.Ended) :
    KeepsCalls rt (({ rt with sessions, heap }.notifyWaiters n).setPc i pc) := by
  have hnotify : KeepsCalls rt ({ rt with sessions, heap }.notifyWaiters n) :=
    keepsCalls_notifyWaiters { rt with sessions, heap } n
  refine hnotify.trans (keepsCalls_setPc fun hended => hi ?_)
  change ((rt.calls i).wake n).pc.Ended at hended
  rcases hended with h | ⟨r, h⟩
  · exact .inl ((Call.pc_wake_eq_iff (by simp)).mp h)
  · exact .inr ⟨r, (Call.pc_wake_eq_iff (by simp)).mp h⟩

theorem keepsCalls_of_step {a : Action} (ha : ∀ spec listener, a ≠ .call spec listener)
    (hs : rt.step a = some rt') : KeepsCalls rt rt' := by
  cases Effect.of_step hs with
  | call spec listener => exact absurd rfl (ha spec listener)
  | check i pc hi | refuse i hi | reuse i s hi | wait i n hi | retry i n hi | joined i n c hi
  | joinFailed i n c hi => exact keepsCalls_setPc (by simp [hi, CallPc.Ended])
  | reserve i hi =>
    have hkeep : KeepsCalls rt (rt.setPc i (.joining rt.numNotifies rt.numCreations)) :=
      keepsCalls_setPc (by simp [hi, CallPc.Ended])
    exact hkeep
  | publishCancelled i n c s hi | publishError i n c e hi | publishReady i n c s hi =>
    exact keepsCalls_release (by simp [hi, CallPc.Ended])
  | remove i n hi =>
    have hkeep : KeepsCalls rt (rt.setPc i (.notifying n)) :=
      keepsCalls_setPc (by simp [hi, CallPc.Ended])
    exact hkeep
  | notify i n hi => exact keepsCalls_release (by simp [hi, CallPc.Ended])
  | abortRecv i s hi =>
    have hkeep : KeepsCalls rt (rt.setPc i (.returned (.error .shuttingDown))) :=
      keepsCalls_setPc (by simp [hi, CallPc.Ended])
    exact hkeep
  | abort i hi =>
    refine keepsCalls_setPc fun hended => ?_
    rcases hended with h | ⟨r, h⟩ <;> simp [h, CallPc.atAwait] at hi
  | connectFailed | connected | ready | recvStart | recvExit | recvRemove | recvFinish | touch
  | gcSnapshot | gcCheck | gcAbort | gcDone | shutdown | reapAbort | reapJoin | shutdownReturn =>
    exact KeepsCalls.refl rt
  | gcRemove g now expired =>
    have hcalls : (removeExpired now expired rt).1.calls = rt.calls := by
      rw [(removeExpired_spec now expired rt).eq]
    intro j
    change ((removeExpired now expired rt).1.calls j).spec = _ ∧
      (_ → ((removeExpired now expired rt).1.calls j).pc = _)
    rw [hcalls]
    exact ⟨rfl, fun _ => rfl⟩
  | shutdownDrain d =>
    obtain ⟨calls, heq, hwoken, -⟩ := rt.drain_eq d
    rw [heq]
    intro j
    refine ⟨(hwoken j).spec_eq, fun hj => ?_⟩
    rcases hj with hj | ⟨r, hj⟩
    · rw [hj]
      exact ((hwoken j).pc_eq_iff (by simp)).mpr hj
    · rw [hj]
      exact ((hwoken j).pc_eq_iff (by simp)).mpr hj

/-- A `Ready` entry is new only for the key of a call that has published it. -/
theorem ready_of_step {a : Action} {k : UdpSessionKey} {s : SessionId}
    (hs : rt.step a = some rt') (hk : rt'.entry k = some (.ready s)) :
    rt.entry k = some (.ready s) ∨
      ∃ i, ¬ (rt.calls i).pc.Ended ∧ (rt.calls i).spec.key = k := by
  have herase : ∀ k', (rt.sessions.erase k').lookup k = some (.ready s) →
      rt.entry k = some (.ready s) := by
    intro k' h
    rw [HashMap.lookup_erase_eq_ite] at h
    split_ifs at h
    exact h
  cases Effect.of_step hs with
  | reserve i =>
    change (rt.sessions.insert _ _).lookup k = _ at hk
    rw [HashMap.lookup_insert_eq_ite] at hk
    split_ifs at hk
    · cases hk
    · exact .inl hk
  | publishCancelled | publishError | remove | recvRemove => exact .inl (herase _ hk)
  | publishReady i n c t hi =>
    change (rt.sessions.insert _ _).lookup k = _ at hk
    rw [HashMap.lookup_insert_eq_ite] at hk
    split_ifs at hk with hkey
    · exact .inr ⟨i, by simp [hi, CallPc.Ended], hkey.symm⟩
    · exact .inl hk
  | gcRemove g now expired =>
    change (removeExpired now expired rt).1.entry k = _ at hk
    rcases (removeExpired_spec now expired rt).entry k with h | ⟨h, -⟩
    · exact .inl (h ▸ hk)
    · rw [h] at hk
      cases hk
  | shutdownDrain d =>
    obtain ⟨calls, heq, -⟩ := rt.drain_eq d
    rw [heq] at hk
    simp [entry] at hk
  | _ => exact .inl hk

theorem closed_of_step {a : Action} (ha : a ≠ .shutdown) (hs : rt.step a = some rt')
    (hopen : rt.closed = false) : rt'.closed = false := by
  cases Effect.of_step hs with
  | shutdown => exact absurd rfl ha
  | gcRemove g now expired =>
    change (removeExpired now expired rt).1.closed = false
    rw [(removeExpired_spec now expired rt).eq]
    exact hopen
  | shutdownDrain d =>
    obtain ⟨calls, heq, -⟩ := rt.drain_eq d
    rw [heq]
    exact hopen
  | _ => exact hopen

end UdpRuntime

/-! ### Packets and reaps one at a time -/

variable {S : Type}

/-- The task is running. -/
def Task.isLive (t : Task S) : Bool :=
  match t.pc with
  | .idle | .done => false
  | _ => true

/-- The payload the task has yet to decide about. -/
def TaskPc.undecided : TaskPc S → Bool
  | locking | checkClosed | readyLookup | readyHit _ | takePending => true
  | _ => false

/-- The payloads of the key among the calls to be made. -/
def callsOf (k : UdpSessionKey) (calls : List (UdpSessionSpec × Datagram)) : List Datagram :=
  (calls.filter fun c => c.1.key = k).map Prod.snd

/-- The payloads of the key in a record of the run. -/
def recordOf (k : UdpSessionKey) (record : List (UdpSessionKey × Datagram)) : List Datagram :=
  (record.filter fun e => e.1 = k).map Prod.snd

theorem recordOf_append (k : UdpSessionKey) (l l' : List (UdpSessionKey × Datagram)) :
    recordOf k (l ++ l') = recordOf k l ++ recordOf k l' := by
  simp [recordOf]

theorem recordOf_singleton (k k' : UdpSessionKey) (d : Datagram) :
    recordOf k [(k', d)] = if k' = k then [d] else [] := by
  by_cases h : k' = k <;> simp [recordOf, h]

theorem callsOf_cons (k : UdpSessionKey) (spec : UdpSessionSpec) (d : Datagram)
    (calls : List (UdpSessionSpec × Datagram)) :
    callsOf k ((spec, d) :: calls) = (if spec.key = k then [d] else []) ++ callsOf k calls := by
  by_cases h : spec.key = k <;> simp [callsOf, h]

/-- Calls that all belong to one key. -/
theorem callsOf_of_forall {k k' : UdpSessionKey} {calls : List (UdpSessionSpec × Datagram)}
    (h : ∀ c ∈ calls, c.1.key = k') :
    callsOf k calls = if k = k' then calls.map Prod.snd else [] := by
  split_ifs with hk
  · rw [callsOf, List.filter_eq_self.mpr]
    intro c hc
    simp [h c hc, hk]
  · rw [callsOf, List.filter_eq_nil_iff.mpr]
    · rfl
    · intro c hc
      simp [h c hc, Ne.symm hk]

namespace UdpLoop

/-- The condition on a step that packets and reaps are handled one at a time and that the runtime
is not shut down. -/
def Serial (st : UdpLoop S) (a : LoopAction) : Prop :=
  ((∃ packet payload, a = .arrive packet payload) ∨ (∃ now, a = .reap now) →
    ∀ t, (st.tasks t).isLive = false) ∧ a ≠ .runtime .shutdown

variable {cfg : UdpLoopConfig S} {st st' : UdpLoop S} {t : ℕ} {k : UdpSessionKey}

/-- The payloads of the key that the task is about to forward or to put back. -/
def hand (task : Task S) (k : UdpSessionKey) : List Datagram :=
  match task.pc with
  | .insert p => if task.spec.key = k then p.replay.datagrams else []
  | .forward calls _ | .await _ _ calls _ | .send _ _ calls _ => callsOf k calls
  | _ => []

/-- The payload of the key that the task has yet to decide about. -/
def upcoming (task : Task S) (k : UdpSessionKey) : List Datagram :=
  if task.pc.undecided ∧ task.spec.key = k then [task.datagram] else []

/-- What holds at the program point of a task. -/
def PointInv (st : UdpLoop S) (task : Task S) : Prop :=
  match task.pc with
  | .readyHit _ => st.pending.lookup task.spec.key = none
  | .takePending | .insert _ => ∀ s, st.rt.entry task.spec.key ≠ some (.ready s)
  | .forward calls _ | .send _ _ calls _ => ∀ c ∈ calls, st.pending.lookup c.1.key = none
  | .await i _ calls _ => st.pending.lookup (st.rt.calls i).spec.key = none ∧
      ∀ c ∈ calls, st.pending.lookup c.1.key = none
  | _ => True

/-- The joint invariant of session map, pending map and the running task, if any. -/
structure SerialInv (st : UdpLoop S) : Prop where
  one_live : ∀ t u, (st.tasks t).isLive = true → (st.tasks u).isLive = true → t = u
  rt_open : st.rt.closed = false
  call_awaited : ∀ i, ¬ (st.rt.calls i).pc.Ended →
    ∃ t d calls keys, (st.tasks t).pc = .await i d calls keys
  ready_none : ∀ k s, st.rt.entry k = some (.ready s) → st.pending.lookup k = none
  point : ∀ t, PointInv st (st.tasks t)
  fifo : ∀ t k, (∀ u, u ≠ t → (st.tasks u).isLive = false) → (∀ d, (k, d) ∉ st.evicted) →
    recordOf k st.forwarded ++ hand (st.tasks t) k ++ st.cached k ++ upcoming (st.tasks t) k =
      recordOf k st.arrived

theorem hand_of_not_live {task : Task S} (h : task.isLive = false) : hand task k = [] := by
  unfold Task.isLive at h
  unfold hand
  split at h
  · rename_i hpc
    rw [hpc]
  · rename_i hpc
    rw [hpc]
  · cases h

theorem upcoming_of_not_live {task : Task S} (h : task.isLive = false) :
    upcoming task k = [] := by
  unfold Task.isLive at h
  unfold upcoming
  split at h
  · rename_i hpc
    simp [hpc, TaskPc.undecided]
  · rename_i hpc
    simp [hpc, TaskPc.undecided]
  · cases h

theorem pointInv_of_not_live {task : Task S} (h : task.isLive = false) : PointInv st task := by
  unfold Task.isLive at h
  unfold PointInv
  split at h
  · rename_i hpc
    rw [hpc]
    trivial
  · rename_i hpc
    rw [hpc]
    trivial
  · cases h

@[simp] theorem forwarded_setTaskPc (st : UdpLoop S) (t : ℕ) (pc : TaskPc S) :
    (st.setTaskPc t pc).forwarded = st.forwarded := rfl

namespace SerialInv

theorem not_live_of_ne (h : SerialInv st) (ht : (st.tasks t).isLive = true) {u : ℕ}
    (hu : u ≠ t) : (st.tasks u).isLive = false := by
  by_contra hlive
  exact hu (h.one_live u t (by simpa using hlive) ht)

/-- The equation of a key while the task `t` runs. -/
theorem fifo_live (h : SerialInv st) (ht : (st.tasks t).isLive = true)
    (hev : ∀ d, (k, d) ∉ st.evicted) :
    recordOf k st.forwarded ++ hand (st.tasks t) k ++ st.cached k ++ upcoming (st.tasks t) k =
      recordOf k st.arrived :=
  h.fifo t k (fun _ hu => h.not_live_of_ne ht hu) hev

/-- While the running task awaits no call, every call has ended. -/
theorem calls_ended (h : SerialInv st) (ht : (st.tasks t).isLive = true)
    (hpc : ∀ i d calls keys, (st.tasks t).pc ≠ .await i d calls keys) (i : ℕ) :
    (st.rt.calls i).pc.Ended := by
  by_contra hi
  obtain ⟨u, d, calls, keys, hu⟩ := h.call_awaited i hi
  have hut : u = t := h.one_live u t (by simp [Task.isLive, hu]) ht
  subst hut
  exact hpc i d calls keys hu

/-- The invariant after a step of the running task. -/
theorem of_task (h : SerialInv st) (ht : (st.tasks t).isLive = true)
    (htasks : ∀ u, u ≠ t → st'.tasks u = st.tasks u) (hopen : st'.rt.closed = false)
    (hcalls : ∀ i, ¬ (st'.rt.calls i).pc.Ended →
      ∃ d calls keys, (st'.tasks t).pc = .await i d calls keys)
    (hready : ∀ k s, st'.rt.entry k = some (.ready s) → st'.pending.lookup k = none)
    (hpoint : PointInv st' (st'.tasks t))
    (hfifo : ∀ k, (∀ d, (k, d) ∉ st'.evicted) →
      recordOf k st'.forwarded ++ hand (st'.tasks t) k ++ st'.cached k ++
        upcoming (st'.tasks t) k = recordOf k st'.arrived) : SerialInv st' := by
  have hother : ∀ u, u ≠ t → (st'.tasks u).isLive = false := by
    intro u hu
    rw [htasks u hu]
    exact h.not_live_of_ne ht hu
  have hlive : ∀ u, (st'.tasks u).isLive = true → u = t := by
    intro u hu
    by_contra hut
    rw [hother u hut] at hu
    cases hu
  refine ⟨fun u v hu hv => (hlive u hu).trans (hlive v hv).symm, hopen, fun i hi => ?_, hready,
    fun u => ?_, fun u k hu hev => ?_⟩
  · obtain ⟨d, calls, keys, hpc⟩ := hcalls i hi
    exact ⟨t, d, calls, keys, hpc⟩
  · rcases eq_or_ne u t with rfl | hut
    · exact hpoint
    · exact pointInv_of_not_live (hother u hut)
  · rcases eq_or_ne u t with rfl | hut
    · exact hfifo k hev
    · have htk := hfifo k hev
      rw [hand_of_not_live (hu t (Ne.symm hut)), upcoming_of_not_live (hu t (Ne.symm hut))] at htk
      rw [hand_of_not_live (hother u hut), upcoming_of_not_live (hother u hut)]
      exact htk

/-- The running task moves on: maps and records stay as they are. -/
theorem setTaskPc (h : SerialInv st) {pc : TaskPc S} (ht : (st.tasks t).isLive = true)
    (hcalls : ∀ i, ¬ (st.rt.calls i).pc.Ended → ∃ d calls keys, pc = .await i d calls keys)
    (hpoint : PointInv st { st.tasks t with pc })
    (hhand : ∀ k, hand { st.tasks t with pc } k = hand (st.tasks t) k)
    (hupcoming : ∀ k, upcoming { st.tasks t with pc } k = upcoming (st.tasks t) k) :
    SerialInv (st.setTaskPc t pc) := by
  have htask : (st.setTaskPc t pc).tasks t = { st.tasks t with pc } := by
    simp [UdpLoop.setTaskPc]
  refine h.of_task ht (fun u hu => Function.update_of_ne hu _ _) h.rt_open (fun i hi => ?_)
    h.ready_none ?_ fun k hev => ?_
  · rw [htask]
    exact hcalls i hi
  · rw [htask]
    exact hpoint
  · rw [htask, hhand, hupcoming]
    exact h.fifo_live ht hev

/-- The same for a task that awaits no call. -/
theorem setTaskPc_of_not_await (h : SerialInv st) {pc : TaskPc S}
    (ht : (st.tasks t).isLive = true)
    (hawait : ∀ i d calls keys, (st.tasks t).pc ≠ .await i d calls keys)
    (hpoint : PointInv st { st.tasks t with pc })
    (hhand : ∀ k, hand { st.tasks t with pc } k = hand (st.tasks t) k)
    (hupcoming : ∀ k, upcoming { st.tasks t with pc } k = upcoming (st.tasks t) k) :
    SerialInv (st.setTaskPc t pc) :=
  h.setTaskPc ht (fun i hi => absurd (h.calls_ended ht hawait i) hi) hpoint hhand hupcoming

/-- A packet or a reap is taken in when no task runs. -/
theorem spawn (h : SerialInv st) (hnone : ∀ u, (st.tasks u).isLive = false) {task : Task S}
    (hpc : task.pc = .locking ∨ ∃ keys, task.pc = .reap keys)
    (arrived : List (UdpSessionKey × Datagram))
    (harrived : ∀ k, recordOf k arrived = recordOf k st.arrived ++ upcoming task k) :
    SerialInv { st.spawn task with arrived } := by
  have hold : ∀ u, u ≠ st.numTasks → (st.spawn task).tasks u = st.tasks u :=
    fun u hu => Function.update_of_ne hu _ _
  have hnew : (st.spawn task).tasks st.numTasks = task := Function.update_self _ _ _
  have hlive : ∀ u, ((st.spawn task).tasks u).isLive = true → u = st.numTasks := by
    intro u hu
    by_contra hne
    rw [hold u hne, hnone u] at hu
    cases hu
  have hhand : ∀ k, hand task k = [] := by
    intro k
    rcases hpc with hpc | ⟨keys, hpc⟩ <;> simp [hand, hpc]
  have hrecord : ∀ k, (∀ d, (k, d) ∉ st.evicted) →
      recordOf k st.forwarded ++ st.cached k = recordOf k st.arrived := by
    intro k hev
    have hfifo := h.fifo st.numTasks k (fun u _ => hnone u) hev
    rw [hand_of_not_live (hnone _), upcoming_of_not_live (hnone _)] at hfifo
    simpa using hfifo
  refine ⟨fun u v hu hv => (hlive u hu).trans (hlive v hv).symm, h.rt_open, fun i hi => ?_,
    h.ready_none, fun u => ?_, fun u k hu hev => ?_⟩
  · obtain ⟨u, d, calls, keys, hu⟩ := h.call_awaited i hi
    have hulive := hnone u
    simp [Task.isLive, hu] at hulive
  · rcases eq_or_ne u st.numTasks with rfl | hne
    · change PointInv _ ((st.spawn task).tasks st.numTasks)
      rw [hnew]
      rcases hpc with hpc | ⟨keys, hpc⟩ <;> simp [PointInv, hpc]
    · change PointInv _ ((st.spawn task).tasks u)
      rw [hold u hne]
      exact pointInv_of_not_live (hnone u)
  · have hut : u = st.numTasks := by
      by_contra hne
      have hnotlive := hu st.numTasks (Ne.symm hne)
      change ((st.spawn task).tasks st.numTasks).isLive = false at hnotlive
      rw [hnew] at hnotlive
      rcases hpc with hpc | ⟨keys, hpc⟩ <;> simp [Task.isLive, hpc] at hnotlive
    subst hut
    change recordOf k st.forwarded ++ hand ((st.spawn task).tasks st.numTasks) k ++ st.cached k ++
      upcoming ((st.spawn task).tasks st.numTasks) k = recordOf k arrived
    rw [hnew, hhand, List.append_nil, hrecord k hev, harrived]

/-- Removing the entry of a key leaves the other keys. -/
theorem cached_erase (st : UdpLoop S) (k k' : UdpSessionKey) :
    (((st.pending.erase k').lookup k).map fun p => p.replay.datagrams).getD [] =
      if k = k' then [] else st.cached k := by
  rw [HashMap.lookup_erase_eq_ite]
  split_ifs <;> rfl

/-- The running task moves on and the pending entry of a key is removed. -/
theorem erasePending (h : SerialInv st) {pc : TaskPc S} {key : UdpSessionKey}
    {forwarded evicted : List (UdpSessionKey × Datagram)} {stored : List Datagram}
    (ht : (st.tasks t).isLive = true)
    (hawait : ∀ i d calls keys, (st.tasks t).pc ≠ .await i d calls keys)
    (hpoint : PointInv { st with pending := st.pending.erase key } { st.tasks t with pc })
    (hfifo : ∀ k, (∀ d, (k, d) ∉ evicted) →
      recordOf k forwarded ++ hand { st.tasks t with pc } k ++
        (if k = key then [] else st.cached k) ++ upcoming { st.tasks t with pc } k =
          recordOf k st.arrived) :
    SerialInv { st.setTaskPc t pc with
      pending := st.pending.erase key, forwarded, stored, evicted } := by
  have htask : (st.setTaskPc t pc).tasks t = { st.tasks t with pc } := by
    simp [UdpLoop.setTaskPc]
  refine h.of_task ht (fun u hu => Function.update_of_ne hu _ _) h.rt_open (fun i hi => ?_)
    (fun k s hk => ?_) ?_ fun k hev => ?_
  · exact absurd (h.calls_ended ht hawait i) hi
  · change (st.pending.erase key).lookup k = none
    rw [HashMap.lookup_erase_eq_ite, h.ready_none k s hk, ite_self]
  · change PointInv _ ((st.setTaskPc t pc).tasks t)
    rw [htask]
    exact hpoint
  · change recordOf k forwarded ++ hand ((st.setTaskPc t pc).tasks t) k ++
      (((st.pending.erase key).lookup k).map fun p => p.replay.datagrams).getD [] ++
      upcoming ((st.setTaskPc t pc).tasks t) k = recordOf k st.arrived
    rw [htask, cached_erase]
    exact hfifo k hev

/-- A packet task that has found a `Ready` session forwards its payload to it. -/
theorem readyHit (h : SerialInv st) {s : SessionId} (ht : (st.tasks t).pc = .readyHit s) :
    SerialInv { st.setTaskPc t (.send s (st.tasks t).datagram [] []) with
      pending := st.pending.erase (st.tasks t).spec.key
      forwarded := st.forwarded ++ [((st.tasks t).spec.key, (st.tasks t).datagram)] } := by
  have hlive : (st.tasks t).isLive = true := by simp [Task.isLive, ht]
  have hnone : st.pending.lookup (st.tasks t).spec.key = none := by
    have hpoint := h.point t
    simpa only [PointInv, ht] using hpoint
  refine h.erasePending hlive (by simp [ht]) (by simp [PointInv]) fun k hev => ?_
  rw [recordOf_append, recordOf_singleton, ← h.fifo_live hlive hev]
  by_cases hk : (st.tasks t).spec.key = k
  · subst hk
    simp [hand, upcoming, ht, TaskPc.undecided, callsOf, cached, hnone]
  · simp [hand, upcoming, ht, TaskPc.undecided, callsOf, hk, Ne.symm hk]

/-- The calls of a decision belong to the key of the task. -/
theorem key_of_decision (hloop : LoopInv st) (cfg : UdpLoopConfig S) (t now : ℕ) (direct : Bool) :
    (st.decision cfg t now direct).ForallSpec fun spec => spec.key = (st.tasks t).spec.key :=
  handleUdpClientPayload_forallSpec rfl (fun q hq => hloop.pending_key _ q hq)
    fun _ _ _ hspec => hspec

/-- The payloads in hand after a decision: the cached ones and the new one, all of the task's
key. -/
theorem hand_decisionPc (hloop : LoopInv st) {now : ℕ} {direct : Bool} (k : UdpSessionKey) :
    hand { st.tasks t with pc := decisionPc (st.decision cfg t now direct) } k =
      if k = (st.tasks t).spec.key then st.cached k ++ [(st.tasks t).datagram] else [] := by
  have hall := key_of_decision hloop cfg t now direct
  have hdatagrams := datagrams_decision cfg st t now direct
  cases hdecision : st.decision cfg t now direct with
  | forward calls =>
    rw [hdecision] at hall hdatagrams
    change callsOf k calls = _
    rw [callsOf_of_forall hall]
    split_ifs with hk
    · rw [hk]
      exact hdatagrams
    · rfl
  | store p =>
    rw [hdecision] at hdatagrams
    change (if (st.tasks t).spec.key = k then p.replay.datagrams else []) = _
    by_cases hk : k = (st.tasks t).spec.key
    · subst hk
      rw [if_pos rfl, if_pos rfl]
      exact hdatagrams
    · rw [if_neg hk, if_neg (Ne.symm hk)]

theorem undecided_decisionPc (decision : SniffDecision S) :
    (decisionPc decision).undecided = false := by
  cases decision <;> rfl

/-- A packet task takes the pending entry of its key and decides. -/
theorem take (h : SerialInv st) (hloop : LoopInv st) {now : ℕ} {direct : Bool}
    (stored : List Datagram) (ht : (st.tasks t).pc = .takePending) :
    SerialInv { st.setTaskPc t (decisionPc (st.decision cfg t now direct)) with
      pending := st.pending.erase (st.tasks t).spec.key, stored } := by
  have hlive : (st.tasks t).isLive = true := by simp [Task.isLive, ht]
  have hnotReady : ∀ s, st.rt.entry (st.tasks t).spec.key ≠ some (.ready s) := by
    have hpoint := h.point t
    simpa only [PointInv, ht] using hpoint
  have hall := key_of_decision hloop cfg t now direct
  refine h.erasePending hlive (by simp [ht]) ?_ fun k hev => ?_
  · cases hdecision : st.decision cfg t now direct with
    | forward calls =>
      rw [hdecision] at hall
      intro c hc
      change (st.pending.erase _).lookup c.1.key = none
      rw [HashMap.lookup_erase_eq_ite, if_pos (hall c hc)]
    | store p => exact hnotReady
  · have hdecided : upcoming { st.tasks t with pc := decisionPc (st.decision cfg t now direct) } k =
        [] := by
      rw [upcoming, undecided_decisionPc]
      rfl
    rw [hand_decisionPc hloop, hdecided]
    refine Eq.trans ?_ (h.fifo_live hlive hev)
    by_cases hk : k = (st.tasks t).spec.key
    · subst hk
      simp [hand, upcoming, ht, TaskPc.undecided]
    · simp [hand, upcoming, ht, TaskPc.undecided, hk, Ne.symm hk]

/-- A packet task puts an entry into the pending map. -/
theorem insert (h : SerialInv st) (hloop : LoopInv st) {p : PendingUdpSniff S}
    (ht : (st.tasks t).pc = .insert p) :
    SerialInv { st.setTaskPc t (.enforce none) with
      pending := st.pending.insert (st.tasks t).spec.key p } := by
  have hlive : (st.tasks t).isLive = true := by simp [Task.isLive, ht]
  have hnotReady : ∀ s, st.rt.entry (st.tasks t).spec.key ≠ some (.ready s) := by
    have hpoint := h.point t
    simpa only [PointInv, ht] using hpoint
  have htask : (st.setTaskPc t (.enforce none)).tasks t =
      { st.tasks t with pc := .enforce none } := by
    simp [UdpLoop.setTaskPc]
  refine h.of_task hlive (fun u hu => Function.update_of_ne hu _ _) h.rt_open (fun i hi => ?_)
    (fun k s' hk => ?_) ?_ fun k hev => ?_
  · exact absurd (h.calls_ended hlive (by simp [ht]) i) hi
  · change (st.pending.insert (st.tasks t).spec.key p).lookup k = none
    rw [HashMap.lookup_insert_eq_ite, if_neg, h.ready_none k s' hk]
    rintro rfl
    exact hnotReady s' hk
  · change PointInv _ ((st.setTaskPc t _).tasks t)
    rw [htask]
    trivial
  · have hfifo := h.fifo_live hlive hev
    have hnone := hloop.insert_none t p ht
    change recordOf k st.forwarded ++ hand ((st.setTaskPc t _).tasks t) k ++
      (((st.pending.insert (st.tasks t).spec.key p).lookup k).map
        fun p => p.replay.datagrams).getD [] ++
      upcoming ((st.setTaskPc t _).tasks t) k = recordOf k st.arrived
    rw [htask, HashMap.lookup_insert_eq_ite, ← hfifo]
    by_cases hk : k = (st.tasks t).spec.key
    · subst hk
      simp [hand, upcoming, ht, TaskPc.undecided, cached, hnone]
    · simp [hand, upcoming, ht, TaskPc.undecided, cached, hk, Ne.symm hk]

/-- The entry of a key is dropped because of the capacity. -/
theorem evict (h : SerialInv st) {k' : UdpSessionKey}
    (ht : (st.tasks t).pc = .enforce (some k')) :
    SerialInv { st.setTaskPc t (.enforce none) with
      pending := st.pending.erase k'
      evicted := st.evicted ++ (st.cached k').map fun d => (k', d) } := by
  have hlive : (st.tasks t).isLive = true := by simp [Task.isLive, ht]
  refine h.erasePending hlive (by simp [ht]) trivial fun k hev => ?_
  have hev' : ∀ d, (k, d) ∉ st.evicted := fun d hd => hev d (List.mem_append_left _ hd)
  -- nothing of the key was dropped, so its entry was empty if it is the one removed
  have hcached : k = k' → st.cached k = [] := by
    rintro rfl
    rw [List.eq_nil_iff_forall_not_mem]
    intro d hd
    exact hev d (List.mem_append_right _ (List.mem_map.mpr ⟨d, hd, rfl⟩))
  refine Eq.trans ?_ (h.fifo_live hlive hev')
  by_cases hk : k = k'
  · rw [if_pos hk, hcached hk]
    simp [hand, upcoming, ht, TaskPc.undecided]
  · simp [hand, upcoming, ht, TaskPc.undecided, hk]

/-- The running task calls `forward_udp_payload`. -/
theorem call (h : SerialInv st) {spec : UdpSessionSpec} {d : Datagram}
    {calls : List (UdpSessionSpec × Datagram)} {keys : List UdpSessionKey} {rt : UdpRuntime}
    (ht : (st.tasks t).pc = .forward ((spec, d) :: calls) keys)
    (hrt : st.rt.step (.call spec (st.tasks t).reaper) = some rt) :
    SerialInv { st.setTaskPc t (.await st.rt.numCalls d calls keys) with
      rt
      forwarded := st.forwarded ++ [(spec.key, d)] } := by
  have hlive : (st.tasks t).isLive = true := by simp [Task.isLive, ht]
  have hpoint : ∀ c ∈ (spec, d) :: calls, st.pending.lookup c.1.key = none := by
    have hpoint := h.point t
    simpa only [PointInv, ht] using hpoint
  have htask : (st.setTaskPc t (.await st.rt.numCalls d calls keys)).tasks t =
      { st.tasks t with pc := .await st.rt.numCalls d calls keys } := by
    simp [UdpLoop.setTaskPc]
  cases hrt
  refine h.of_task hlive (fun u hu => Function.update_of_ne hu _ _) h.rt_open (fun i hi => ?_)
    h.ready_none ?_ fun k hev => ?_
  · have hinew : i = st.rt.numCalls := by
      by_contra hne
      refine hi ?_
      change (Function.update st.rt.calls st.rt.numCalls _ i).pc.Ended
      rw [Function.update_of_ne hne]
      exact h.calls_ended hlive (by simp [ht]) i
    subst hinew
    exact ⟨d, calls, keys, by rw [htask]⟩
  · change PointInv _ ((st.setTaskPc t _).tasks t)
    rw [htask]
    refine ⟨?_, fun c hc => hpoint c (List.mem_cons_of_mem _ hc)⟩
    change st.pending.lookup (Function.update st.rt.calls st.rt.numCalls _ _).spec.key = none
    rw [Function.update_self]
    exact hpoint (spec, d) List.mem_cons_self
  · have hfifo := h.fifo_live hlive hev
    change recordOf k (st.forwarded ++ _) ++ hand ((st.setTaskPc t _).tasks t) k ++ st.cached k ++
      upcoming ((st.setTaskPc t _).tasks t) k = recordOf k st.arrived
    rw [htask, recordOf_append, recordOf_singleton, ← hfifo]
    simp [hand, upcoming, ht, TaskPc.undecided, callsOf_cons]

/-- A call that has returned was the only one. -/
theorem calls_ended_of_await (h : SerialInv st) {i : ℕ} {d : Datagram}
    {calls : List (UdpSessionSpec × Datagram)} {keys : List UdpSessionKey}
    (ht : (st.tasks t).pc = .await i d calls keys) (hi : (st.rt.calls i).pc.Ended) (j : ℕ) :
    (st.rt.calls j).pc.Ended := by
  by_contra hj
  obtain ⟨u, d', calls', keys', hu⟩ := h.call_awaited j hj
  have hut : u = t := h.one_live u t (by simp [Task.isLive, hu]) (by simp [Task.isLive, ht])
  subst hut
  rw [ht] at hu
  cases hu
  exact hj hi

/-- The running task touches a session and sends over it. -/
theorem send (h : SerialInv st) {s : SessionId} {d : Datagram} {now : ℕ}
    {calls : List (UdpSessionSpec × Datagram)} {keys : List UdpSessionKey} {rt : UdpRuntime}
    (sent : List (UdpSessionKey × Emission)) (ht : (st.tasks t).pc = .send s d calls keys)
    (hrt : st.rt.step (.touch s now) = some rt) :
    SerialInv { st.setTaskPc t (.forward calls keys) with rt, sent } := by
  have hlive : (st.tasks t).isLive = true := by simp [Task.isLive, ht]
  have hpc : SerialInv (st.setTaskPc t (.forward calls keys)) := by
    refine h.setTaskPc_of_not_await hlive (by simp [ht]) ?_ (fun k => ?_) fun k => ?_
    · have hpoint := h.point t
      simpa only [PointInv, ht] using hpoint
    · simp [hand, ht]
    · simp [upcoming, ht, TaskPc.undecided]
  cases hrt
  exact { hpc with }

/-- A reaper takes the pending entry of an expired key. -/
theorem reapTake (h : SerialInv st) (hloop : LoopInv st) {k' : UdpSessionKey}
    {keys : List UdpSessionKey} {p : PendingUdpSniff S}
    (ht : (st.tasks t).pc = .reap (k' :: keys)) (hp : st.pending.lookup k' = some p) :
    SerialInv { st.setTaskPc t (.forward p.flush keys) with
      pending := st.pending.erase k' } := by
  have hlive : (st.tasks t).isLive = true := by simp [Task.isLive, ht]
  have hkeys : ∀ c ∈ p.flush, c.1.key = k' :=
    PendingUdpSniff.forall_flush (Q := fun spec => spec.key = k') (hloop.pending_key k' p hp)
  refine h.erasePending hlive (by simp [ht]) (fun c hc => ?_) fun k hev => ?_
  · change (st.pending.erase k').lookup c.1.key = none
    rw [HashMap.lookup_erase_eq_ite, if_pos (hkeys c hc)]
  · have hhand : hand ({ st.tasks t with pc := .forward p.flush keys } : Task S) k =
        callsOf k p.flush := rfl
    rw [hhand, callsOf_of_forall hkeys, p.map_snd_flush]
    refine Eq.trans ?_ (h.fifo_live hlive hev)
    by_cases hk : k = k'
    · subst hk
      simp [hand, upcoming, ht, TaskPc.undecided, cached_eq hp]
    · simp [hand, upcoming, ht, TaskPc.undecided, hk]

/-- A step of the runtime. -/
theorem runtime (h : SerialInv st) {a : Action} {rt : UdpRuntime} (ha : ownStep a = true)
    (hshutdown : a ≠ .shutdown) (hrt : st.rt.step a = some rt) : SerialInv { st with rt } := by
  have hcall : ∀ spec listener, a ≠ .call spec listener := by
    rintro spec listener rfl
    cases ha
  have hkeep := UdpRuntime.keepsCalls_of_step hcall hrt
  -- a new `Ready` entry belongs to the call that the running task awaits
  have hready : ∀ k s, rt.entry k = some (.ready s) → st.rt.entry k = some (.ready s) ∨
      ∃ t i d calls keys, (st.tasks t).pc = .await i d calls keys ∧
        (st.rt.calls i).spec.key = k := by
    intro k s hk
    rcases UdpRuntime.ready_of_step hrt hk with hold | ⟨i, hi, hkey⟩
    · exact .inl hold
    · obtain ⟨t, d, calls, keys, ht⟩ := h.call_awaited i hi
      exact .inr ⟨t, i, d, calls, keys, ht, hkey⟩
  refine ⟨h.one_live, UdpRuntime.closed_of_step hshutdown hrt h.rt_open, fun i hi => ?_,
    fun k s hk => ?_, fun t => ?_, h.fifo⟩
  · refine h.call_awaited i fun hended => hi ?_
    change (rt.calls i).pc.Ended
    rw [(hkeep i).2 hended]
    exact hended
  · rcases hready k s hk with hold | ⟨t, i, d, calls, keys, ht, hkey⟩
    · exact h.ready_none k s hold
    · have hpoint := h.point t
      simp only [PointInv, ht] at hpoint
      rw [← hkey]
      exact hpoint.1
  · have hpoint := h.point t
    have hnotReady : (st.tasks t).isLive = true →
        (∀ i d calls keys, (st.tasks t).pc ≠ .await i d calls keys) →
        (∀ s, st.rt.entry (st.tasks t).spec.key ≠ some (.ready s)) →
        ∀ s, rt.entry (st.tasks t).spec.key ≠ some (.ready s) := by
      intro hlive hpc hold s hk
      rcases hready _ s hk with hk' | ⟨u, i, d, calls, keys, hu, -⟩
      · exact hold s hk'
      · have hut : u = t := h.one_live u t (by simp [Task.isLive, hu]) hlive
        subst hut
        exact hpc i d calls keys hu
    cases hpc : (st.tasks t).pc with
    | takePending | insert p =>
      simp only [PointInv, hpc] at hpoint ⊢
      exact hnotReady (by simp [Task.isLive, hpc]) (by simp [hpc]) hpoint
    | await i d calls keys =>
      simp only [PointInv, hpc] at hpoint ⊢
      rw [(hkeep i).1]
      exact hpoint
    | readyHit s | forward calls keys | send s d calls keys =>
      simp only [PointInv, hpc] at hpoint ⊢
      exact hpoint
    | idle | locking | checkClosed | readyLookup | enforce victim | reap keys | done =>
      simp only [PointInv, hpc]

/-- **One at a time.** Every serial step keeps `SerialInv`. -/
theorem step {a : LoopAction} (h : SerialInv st) (hloop : LoopInv st) (ha : Serial st a)
    (hs : st.step cfg a = some st') : SerialInv st' := by
  cases Effect.of_step hs with
  | arrive packet payload =>
    refine h.spawn (ha.1 (.inl ⟨packet, payload, rfl⟩)) (.inl rfl) _ fun k => ?_
    rw [recordOf_append, recordOf_singleton]
    simp [upcoming, TaskPc.undecided]
  | reapStart now =>
    refine { h.spawn (ha.1 (.inr ⟨now, rfl⟩)) (.inr ⟨_, rfl⟩) st.arrived fun k => ?_ with }
    simp [upcoming, TaskPc.undecided]
  | closed t now direct ht hclosed =>
    rw [h.rt_open] at hclosed
    cases hclosed
  | lock t ht | opened t now direct ht | enforceDone t now direct ht | pick t k ht
  | reapEnd t now direct ht | reapSkip t now direct k keys ht =>
    have hlive : (st.tasks t).isLive = true := by simp [Task.isLive, ht]
    refine h.setTaskPc_of_not_await hlive (by simp [ht]) trivial (fun k => ?_) fun k => ?_
    · simp [hand, ht]
    · simp [upcoming, ht, TaskPc.undecided]
  | hit t now direct s ht hready =>
    have hlive : (st.tasks t).isLive = true := by simp [Task.isLive, ht]
    refine h.setTaskPc_of_not_await hlive (by simp [ht]) (h.ready_none _ s hready) (fun k => ?_)
      fun k => ?_
    · simp [hand, ht]
    · simp [upcoming, ht, TaskPc.undecided]
  | miss t now direct ht hnotReady =>
    have hlive : (st.tasks t).isLive = true := by simp [Task.isLive, ht]
    refine h.setTaskPc_of_not_await hlive (by simp [ht]) hnotReady (fun k => ?_) fun k => ?_
    · simp [hand, ht]
    · simp [upcoming, ht, TaskPc.undecided]
  | readyHit t now direct s ht => exact h.readyHit ht
  | take t now direct ht => exact h.take hloop _ ht
  | insert t now direct p ht => exact h.insert hloop ht
  | evict t now direct k ht => exact h.evict ht
  | finish t now direct keys ht =>
    have hlive : (st.tasks t).isLive = true := by simp [Task.isLive, ht]
    refine h.setTaskPc_of_not_await hlive (by simp [ht]) ?_ (fun k => ?_) fun k => ?_
    · cases (st.tasks t).reaper <;> trivial
    · cases hr : (st.tasks t).reaper <;> simp [hand, ht, callsOf]
    · cases hr : (st.tasks t).reaper <;> simp [upcoming, ht, TaskPc.undecided]
  | call t now direct spec d calls keys rt ht hrt => exact h.call ht hrt
  | gotSession t now direct i s d calls keys ht hi | gotError t now direct i e d calls keys ht hi =>
    refine h.setTaskPc (by simp [Task.isLive, ht]) (fun j hj => ?_) ?_ (fun k => ?_) fun k => ?_
    · exact absurd (h.calls_ended_of_await ht (.inr ⟨_, hi⟩) j) hj
    · have hpoint := h.point t
      simp only [PointInv, ht] at hpoint
      exact hpoint.2
    · simp [hand, ht]
    · simp [upcoming, ht, TaskPc.undecided]
  | send t now direct s d calls keys rt ht hrt => exact h.send _ ht hrt
  | reapTake t now direct k keys p ht hp => exact h.reapTake hloop ht hp
  | runtime a rt hown hrt => exact h.runtime hown (fun hshut => ha.2 (by rw [hshut])) hrt

end SerialInv

theorem serialInv_new (timeoutSecs : ℕ) : SerialInv (new timeoutSecs : UdpLoop S) where
  one_live _ _ h := by cases h
  rt_open := rfl
  call_awaited _ h := absurd (.inl rfl) h
  ready_none _ _ h := by cases h
  point _ := trivial
  fifo _ _ _ _ := rfl

/-- **Each payload of a flow once and in order.** In a run that handles packets and reaps one at a
time, in every state in which no task runs: unless payloads of the key were evicted, those handed
to forwarding for the key followed by those in its pending entry are the arrived ones in order of
arrival. And in every state of the run a key with a `Ready` session has no pending entry. -/
theorem fifo_exactly_once {timeoutSecs : ℕ} (h : Steps (step cfg) Serial (new timeoutSecs) st)
    (k : UdpSessionKey) :
    ((∀ t, (st.tasks t).isLive = false) → (∀ d, (k, d) ∉ st.evicted) →
      recordOf k st.forwarded ++ st.cached k = recordOf k st.arrived) ∧
    ¬ ((∃ s, st.rt.entry k = some (.ready s)) ∧ (st.pending.lookup k).isSome = true) := by
  have hinv : LoopInv st ∧ SerialInv st := by
    refine h.invariant (I := fun st => LoopInv st ∧ SerialInv st)
      ⟨loopInv_new timeoutSecs, serialInv_new timeoutSecs⟩ ?_
    rintro st a st' ⟨hloop, hserial⟩ ha hs
    exact ⟨hloop.step hs, hserial.step hloop ha hs⟩
  refine ⟨fun hnone hev => ?_, ?_⟩
  · have hfifo := hinv.2.fifo 0 k (fun u _ => hnone u) hev
    rw [hand_of_not_live (hnone 0), upcoming_of_not_live (hnone 0)] at hfifo
    simpa using hfifo
  · rintro ⟨⟨s, hs⟩, hp⟩
    rw [hinv.2.ready_none k s hs] at hp
    cases hp

/-- `Serial` as a check. -/
def serial (st : UdpLoop S) : LoopAction → Bool
  | .arrive _ _ | .reap _ => decide (∀ t < st.numTasks, (st.tasks t).isLive = false)
  | .runtime .shutdown => false
  | _ => true

theorem not_live_of_lt (hloop : LoopInv st)
    (h : ∀ t < st.numTasks, (st.tasks t).isLive = false) (t : ℕ) :
    (st.tasks t).isLive = false := by
  rcases lt_or_ge t st.numTasks with hlt | hge
  · exact h t hlt
  · rw [Task.isLive, hloop.fresh_task t hge]

theorem steps_serial_of_check {timeoutSecs : ℕ}
    (h : Steps (step cfg) (fun st a => serial st a = true) (new timeoutSecs) st) :
    Steps (step cfg) Serial (new timeoutSecs) st := by
  induction h with
  | refl => exact .refl
  | tail h ha hs ih =>
    refine .tail ih ⟨fun hspawn => ?_, ?_⟩ hs
    · refine not_live_of_lt (loopInv_of_steps h) ?_
      rcases hspawn with ⟨packet, payload, rfl⟩ | ⟨now, rfl⟩
      · simpa [serial] using ha
      · simpa [serial] using ha
    · rintro rfl
      cases ha

theorem fifo_exactly_once_firstReaped :
    ∃ st, Steps (step hungrySniffer) Serial (new 60) st ∧ (∀ t, (st.tasks t).isLive = false) ∧
      recordOf examplePacket.spec.key st.forwarded ++ st.cached examplePacket.spec.key =
        recordOf examplePacket.spec.key st.arrived ∧
      recordOf examplePacket.spec.key st.arrived = [⟨0, [1]⟩, ⟨2, [2]⟩] := by
  obtain ⟨st, hst, hdone, hevicted, harrived⟩ :
      ∃ st, Steps (step hungrySniffer) (fun st a => serial st a = true) (new 60) st ∧
        ((∀ t < st.numTasks, (st.tasks t).isLive = false) ∧ st.evicted = [] ∧
          recordOf examplePacket.spec.key st.arrived = [⟨0, [1]⟩, ⟨2, [2]⟩]) :=
    exists_steps_of_guarded_run
      (l := firstReaped ++ [.advance 2 310 false, .advance 2 310 false])
      (fun _ _ h => h) (by decide +kernel)
  have hidle := not_live_of_lt (loopInv_of_steps hst) hdone
  refine ⟨st, steps_serial_of_check hst, hidle, ?_, harrived⟩
  refine (fifo_exactly_once (steps_serial_of_check hst) examplePacket.spec.key).1 hidle ?_
  simp [hevicted]

end UdpLoop

end XtpRs.Udp
