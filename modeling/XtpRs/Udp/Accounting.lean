import XtpRs.Udp.Handler

/-!
# No cached payload is lost

A payload put into a replay buffer is held by the pending map or by a task until it is forwarded
or evicted. The one step that can break this is the removal of the pending entry by a packet task
that has found a `Ready` session: `reap_pending_udp_sniff` works without the key lock, so while it
creates the session for the entry it has taken, a packet task of the same key can start a second
sniff, and the next packet task then finds the session and discards that second entry.

## Main definitions

* `TaskPc.held`: the payloads a task is about to forward or to put back.
* `UdpLoop.Accounted`: where a stored payload may be.
* `UdpLoop.KeepsPending`: the condition on a step that no pending entry is discarded on finding
  a `Ready` session.

## Main results

* `UdpLoop.LoopInv.step`: key locks are exclusive and no insertion overwrites an entry.
* `UdpLoop.stored_accounted`: stored payloads are accounted for in every run under
  `KeepsPending`.
* `UdpLoop.stored_lost`: without it a stored payload is lost.
-/

namespace XtpRs.Udp

open Lib Sniff

variable {S : Type}

/-- The payloads a task is about to forward or to put back into the pending map. -/
def TaskPc.held : TaskPc S → List Datagram
  | insert p => p.replay.datagrams
  | forward calls _ | await _ _ calls _ | send _ _ calls _ => calls.map Prod.snd
  | _ => []

/-- The points that only packet tasks reach. -/
def TaskPc.packetOnly : TaskPc S → Bool
  | locking | checkClosed | readyLookup | readyHit _ | takePending | insert _ => true
  | _ => false

namespace UdpLoop

theorem spec_setTaskPc (st : UdpLoop S) (t u : ℕ) (pc : TaskPc S) :
    ((st.setTaskPc t pc).tasks u).spec = (st.tasks u).spec := by
  rcases eq_or_ne u t with rfl | hut
  · simp [setTaskPc]
  · simp [setTaskPc, hut]

theorem reaper_setTaskPc (st : UdpLoop S) (t u : ℕ) (pc : TaskPc S) :
    ((st.setTaskPc t pc).tasks u).reaper = (st.tasks u).reaper := by
  rcases eq_or_ne u t with rfl | hut
  · simp [setTaskPc]
  · simp [setTaskPc, hut]

theorem pc_setTaskPc (st : UdpLoop S) (t u : ℕ) (pc : TaskPc S) :
    ((st.setTaskPc t pc).tasks u).pc = if u = t then pc else (st.tasks u).pc := by
  rcases eq_or_ne u t with rfl | hut
  · simp [setTaskPc]
  · simp [setTaskPc, hut]

variable {cfg : UdpLoopConfig S} {st st' : UdpLoop S} {t : ℕ} {d : Datagram}

/-! ### Key locks -/

/-- Key locks are exclusive, entries are stored under the key of their specification, and the
task about to insert an entry finds none. -/
structure LoopInv (st : UdpLoop S) : Prop where
  fresh_task : ∀ t, st.numTasks ≤ t → (st.tasks t).pc = .idle
  packet_point : ∀ t, (st.tasks t).pc.packetOnly = true → (st.tasks t).reaper = false
  lock_unique : ∀ t u, (st.tasks t).holdsLock = true → (st.tasks u).holdsLock = true →
    (st.tasks t).spec.key = (st.tasks u).spec.key → t = u
  insert_none : ∀ t p, (st.tasks t).pc = .insert p →
    st.pending.lookup (st.tasks t).spec.key = none
  pending_key : ∀ k p, st.pending.lookup k = some p → p.spec.key = k
  insert_key : ∀ t p, (st.tasks t).pc = .insert p → p.spec.key = (st.tasks t).spec.key

namespace LoopInv

theorem holdsLock_of_insert (h : LoopInv st) {p : PendingUdpSniff S}
    (ht : (st.tasks t).pc = .insert p) : (st.tasks t).holdsLock = true := by
  have hr := h.packet_point t (by rw [ht]; rfl)
  simp [Task.holdsLock, ht, hr]

/-- A task moves on; `pending` may change at other tasks' expense only by losing entries. -/
theorem setTaskPc (h : LoopInv st) {pc : TaskPc S}
    (pending : HashMap UdpSessionKey (PendingUdpSniff S)) (ht : (st.tasks t).pc ≠ .idle)
    (hpoint : pc.packetOnly = true → (st.tasks t).pc.packetOnly = true)
    (hlock : (Task.holdsLock { st.tasks t with pc }) = true → (st.tasks t).holdsLock = true)
    (hinsert : ∀ p, pc = .insert p → pending.lookup (st.tasks t).spec.key = none ∧
      p.spec.key = (st.tasks t).spec.key)
    (hpending : ∀ u p, u ≠ t → (st.tasks u).pc = .insert p →
      pending.lookup (st.tasks u).spec.key = none)
    (hkey : ∀ k p, pending.lookup k = some p → p.spec.key = k) :
    LoopInv { st.setTaskPc t pc with pending } := by
  have hlocks : ∀ u, ((st.setTaskPc t pc).tasks u).holdsLock = true →
      (st.tasks u).holdsLock = true := by
    intro u hu
    rcases eq_or_ne u t with rfl | hut
    · exact hlock (by simpa [UdpLoop.setTaskPc] using hu)
    · simpa [UdpLoop.setTaskPc, hut] using hu
  refine ⟨fun u hu => ?_, fun u hu => ?_, fun u v hu hv hkey => ?_, fun u p hu => ?_, hkey,
    fun u p hu => ?_⟩
  · have hidle := h.fresh_task u hu
    have hut : u ≠ t := by
      rintro rfl
      exact ht hidle
    exact (pc_setTaskPc st t u pc).trans (by rw [if_neg hut, hidle])
  · refine (reaper_setTaskPc st t u pc).trans (h.packet_point u ?_)
    change ((st.setTaskPc t pc).tasks u).pc.packetOnly = true at hu
    rw [pc_setTaskPc] at hu
    split_ifs at hu with hut
    · exact hut ▸ hpoint hu
    · exact hu
  · refine h.lock_unique u v (hlocks u hu) (hlocks v hv) ?_
    rw [← spec_setTaskPc st t u pc, ← spec_setTaskPc st t v pc]
    exact hkey
  · change ((st.setTaskPc t pc).tasks u).pc = _ at hu
    change pending.lookup ((st.setTaskPc t pc).tasks u).spec.key = none
    rw [spec_setTaskPc]
    rw [pc_setTaskPc] at hu
    split_ifs at hu with hut
    · exact hut ▸ (hinsert p hu).1
    · exact hpending u p hut hu
  · change ((st.setTaskPc t pc).tasks u).pc = _ at hu
    change p.spec.key = ((st.setTaskPc t pc).tasks u).spec.key
    rw [spec_setTaskPc]
    rw [pc_setTaskPc] at hu
    split_ifs at hu with hut
    · exact hut ▸ (hinsert p hu).2
    · exact h.insert_key u p hu

/-- A task moves on and the pending map loses an entry, if any. -/
theorem setTaskPc_erase (h : LoopInv st) {pc : TaskPc S} {k : UdpSessionKey}
    (ht : (st.tasks t).pc ≠ .idle)
    (hpoint : pc.packetOnly = true → (st.tasks t).pc.packetOnly = true)
    (hlock : (Task.holdsLock { st.tasks t with pc }) = true → (st.tasks t).holdsLock = true)
    (hinsert : ∀ p, pc = .insert p → k = (st.tasks t).spec.key ∧
      p.spec.key = (st.tasks t).spec.key) :
    LoopInv { st.setTaskPc t pc with pending := st.pending.erase k } := by
  refine h.setTaskPc _ ht hpoint hlock (fun p hp => ⟨?_, (hinsert p hp).2⟩) (fun u p _ hu => ?_)
    fun k' p hk' => ?_
  · rw [HashMap.lookup_erase_eq_ite, if_pos (hinsert p hp).1.symm]
  · rw [HashMap.lookup_erase_eq_ite, h.insert_none u p hu, ite_self]
  · rw [HashMap.lookup_erase_eq_ite] at hk'
    split_ifs at hk'
    exact h.pending_key k' p hk'

/-- A task moves on and the pending map stays. -/
theorem setTaskPc_same (h : LoopInv st) {pc : TaskPc S} (ht : (st.tasks t).pc ≠ .idle)
    (hpoint : pc.packetOnly = true → (st.tasks t).pc.packetOnly = true)
    (hlock : (Task.holdsLock { st.tasks t with pc }) = true → (st.tasks t).holdsLock = true)
    (hinsert : ∀ p, pc ≠ .insert p) : LoopInv (st.setTaskPc t pc) := by
  have hsame := h.setTaskPc st.pending ht hpoint hlock
    (fun p hp => absurd hp (hinsert p)) (fun u p _ hu => h.insert_none u p hu) h.pending_key
  exact { hsame with }

/-- A packet task acquires the free lock of its key. -/
theorem lock (h : LoopInv st) (ht : (st.tasks t).pc = .locking) (hfree : st.lockFree t = true) :
    LoopInv (st.setTaskPc t .checkClosed) := by
  have hother : ∀ u, ((st.setTaskPc t .checkClosed).tasks u).holdsLock = true →
      (st.tasks u).spec.key = (st.tasks t).spec.key → u = t := by
    intro u hu hkey
    by_contra hut
    have hu' : (st.tasks u).holdsLock = true := by simpa [UdpLoop.setTaskPc, hut] using hu
    have hlt : u < st.numTasks := by
      by_contra hge
      simp [Task.holdsLock, h.fresh_task u (not_lt.mp hge)] at hu'
    simp only [lockFree, decide_eq_true_eq] at hfree
    exact hfree u hlt hkey hu'
  refine ⟨fun u hu => ?_, fun u hu => ?_, fun u v hu hv hkey => ?_, fun u p hu => ?_,
    h.pending_key, fun u p hu => ?_⟩
  · have hidle := h.fresh_task u hu
    have hut : u ≠ t := by
      rintro rfl
      rw [ht] at hidle
      cases hidle
    rw [pc_setTaskPc, if_neg hut, hidle]
  · rw [reaper_setTaskPc]
    rw [pc_setTaskPc] at hu
    split_ifs at hu with hut
    · subst hut
      exact h.packet_point u (by rw [ht]; rfl)
    · exact h.packet_point u hu
  · rw [spec_setTaskPc, spec_setTaskPc] at hkey
    rcases eq_or_ne u t with rfl | hut
    · exact (hother v hv hkey.symm).symm
    · rcases eq_or_ne v t with rfl | hvt
      · exact hother u hu hkey
      · refine h.lock_unique u v ?_ ?_ hkey
        · simpa [UdpLoop.setTaskPc, hut] using hu
        · simpa [UdpLoop.setTaskPc, hvt] using hv
  · rw [spec_setTaskPc]
    rw [pc_setTaskPc] at hu
    split_ifs at hu
    exact h.insert_none u p hu
  · rw [spec_setTaskPc]
    rw [pc_setTaskPc] at hu
    split_ifs at hu
    exact h.insert_key u p hu

/-- A task is spawned that holds no lock. -/
theorem spawn (h : LoopInv st) {task : Task S} (hlock : task.holdsLock = false)
    (hpoint : task.pc.packetOnly = true → task.reaper = false)
    (hinsert : ∀ p, task.pc ≠ .insert p) : LoopInv (st.spawn task) := by
  have hold : ∀ u, u ≠ st.numTasks → (st.spawn task).tasks u = st.tasks u :=
    fun u hu => Function.update_of_ne hu _ _
  have hnew : (st.spawn task).tasks st.numTasks = task := Function.update_self _ _ _
  have hlocked : ∀ u, ((st.spawn task).tasks u).holdsLock = true → u ≠ st.numTasks := by
    rintro u hu rfl
    rw [hnew, hlock] at hu
    cases hu
  have holdInsert : ∀ u p, ((st.spawn task).tasks u).pc = .insert p → u ≠ st.numTasks := by
    rintro u p hu rfl
    rw [hnew] at hu
    exact hinsert p hu
  refine ⟨fun u hu => ?_, fun u hu => ?_, fun u v hu hv hkey => ?_, fun u p hu => ?_,
    h.pending_key, fun u p hu => ?_⟩
  · have hle : st.numTasks + 1 ≤ u := hu
    rw [hold u (by omega)]
    exact h.fresh_task u (by omega)
  · rcases eq_or_ne u st.numTasks with rfl | hne
    · rw [hnew] at hu ⊢
      exact hpoint hu
    · rw [hold u hne] at hu ⊢
      exact h.packet_point u hu
  · have hu' := hlocked u hu
    have hv' := hlocked v hv
    rw [hold u hu'] at hu hkey
    rw [hold v hv'] at hv hkey
    exact h.lock_unique u v hu hv hkey
  · have hne := holdInsert u p hu
    rw [hold u hne] at hu ⊢
    exact h.insert_none u p hu
  · have hne := holdInsert u p hu
    rw [hold u hne] at hu ⊢
    exact h.insert_key u p hu

/-- The entry a decision stores belongs to the key of the task. -/
theorem key_of_decisionPc (h : LoopInv st) {now : ℕ} {direct : Bool} {p : PendingUdpSniff S}
    (hp : decisionPc (st.decision cfg t now direct) = .insert p) :
    p.spec.key = (st.tasks t).spec.key := by
  have hall : (st.decision cfg t now direct).ForallSpec
      fun spec => spec.key = (st.tasks t).spec.key :=
    handleUdpClientPayload_forallSpec rfl (fun q hq => h.pending_key _ q hq)
      fun _ _ _ hspec => hspec
  cases hdecision : st.decision cfg t now direct with
  | forward calls =>
    rw [hdecision] at hp
    cases hp
  | store q =>
    rw [hdecision] at hp hall
    cases hp
    exact hall

/-- **Key locks.** Every step of the loop keeps `LoopInv`. -/
theorem step {a : LoopAction} (h : LoopInv st) (hs : st.step cfg a = some st') :
    LoopInv st' := by
  cases Effect.of_step hs with
  | arrive packet payload =>
    have hspawn : LoopInv (st.spawn ⟨packet.spec, ⟨st.numTasks, payload⟩, false, .locking⟩) :=
      h.spawn rfl (fun _ => rfl) (by simp)
    exact { hspawn with }
  | reapStart now => exact h.spawn rfl (fun hpoint => by cases hpoint) (by simp)
  | lock t ht hfree => exact h.lock ht hfree
  | closed t now direct ht | opened t now direct ht | hit t now direct s ht
  | miss t now direct ht | enforceDone t now direct ht | pick t k ht
  | gotSession t now direct i s d calls keys ht | gotError t now direct i e d calls keys ht
  | reapEnd t now direct ht | reapSkip t now direct k keys ht =>
    refine h.setTaskPc_same (by simp [ht]) ?_ ?_ (by simp)
    · simp [ht, TaskPc.packetOnly]
    · simp [ht, Task.holdsLock]
  | finish t now direct keys ht =>
    refine h.setTaskPc_same (by simp [ht]) ?_ ?_ ?_
    · split_ifs <;> simp [TaskPc.packetOnly]
    · split_ifs <;> simp_all [Task.holdsLock]
    · split_ifs <;> simp
  | readyHit t now direct s ht =>
    have herase : LoopInv { st.setTaskPc t (.send s (st.tasks t).datagram [] []) with
        pending := st.pending.erase (st.tasks t).spec.key } := by
      refine h.setTaskPc_erase (by simp [ht]) ?_ ?_ (by simp)
      · simp [TaskPc.packetOnly]
      · simp [ht, Task.holdsLock]
    exact { herase with }
  | take t now direct ht =>
    have herase : LoopInv { st.setTaskPc t (decisionPc (st.decision cfg t now direct)) with
        pending := st.pending.erase (st.tasks t).spec.key } := by
      refine h.setTaskPc_erase (by simp [ht]) (fun _ => ?_) ?_
        fun p hp => ⟨rfl, h.key_of_decisionPc hp⟩
      · simp [ht, TaskPc.packetOnly]
      · intro hlock
        simp only [Task.holdsLock, Bool.and_eq_true, Bool.not_eq_true'] at hlock
        simp [Task.holdsLock, ht, hlock.1]
    exact { herase with }
  | insert t now direct p ht =>
    refine h.setTaskPc _ (by simp [ht]) ?_ ?_ (by simp) (fun u p' hut hu => ?_)
      fun k p' hk => ?_
    · simp [TaskPc.packetOnly]
    · simp [ht, Task.holdsLock]
    · rw [HashMap.lookup_insert_eq_ite, if_neg]
      · exact h.insert_none u p' hu
      · intro hkey
        exact hut (h.lock_unique u t (h.holdsLock_of_insert hu) (h.holdsLock_of_insert ht) hkey)
    · rw [HashMap.lookup_insert_eq_ite] at hk
      split_ifs at hk with hkey
      · cases hk
        rw [hkey]
        exact h.insert_key t p ht
      · exact h.pending_key k p' hk
  | evict t now direct k ht =>
    have herase : LoopInv { st.setTaskPc t (.enforce none) with
        pending := st.pending.erase k } := by
      refine h.setTaskPc_erase (by simp [ht]) ?_ ?_ (by simp)
      · simp [TaskPc.packetOnly]
      · simp [ht, Task.holdsLock]
    exact { herase with }
  | call t now direct spec d calls keys rt ht =>
    have hpc : LoopInv (st.setTaskPc t (.await st.rt.numCalls d calls keys)) := by
      refine h.setTaskPc_same (by simp [ht]) ?_ ?_ (by simp)
      · simp [TaskPc.packetOnly]
      · simp [ht, Task.holdsLock]
    exact { hpc with }
  | send t now direct s d calls keys rt ht =>
    have hpc : LoopInv (st.setTaskPc t (.forward calls keys)) := by
      refine h.setTaskPc_same (by simp [ht]) ?_ ?_ (by simp)
      · simp [TaskPc.packetOnly]
      · simp [ht, Task.holdsLock]
    exact { hpc with }
  | reapTake t now direct k keys p ht hp =>
    refine h.setTaskPc_erase (by simp [ht]) ?_ ?_ (by simp)
    · simp [TaskPc.packetOnly]
    · simp [ht, Task.holdsLock]
  | runtime a rt => exact { h with }

end LoopInv

theorem loopInv_new (timeoutSecs : ℕ) : LoopInv (new timeoutSecs : UdpLoop S) where
  fresh_task _ _ := rfl
  packet_point _ _ := rfl
  lock_unique _ _ h := by cases h
  insert_none _ _ h := by cases h
  pending_key _ _ h := by cases h
  insert_key _ _ h := by cases h

theorem loopInv_of_steps {timeoutSecs : ℕ} {P : UdpLoop S → LoopAction → Prop}
    (h : Steps (step cfg) P (new timeoutSecs) st) : LoopInv st :=
  h.invariant (loopInv_new timeoutSecs) fun _ _ _ ht _ hs => ht.step hs

/-! ### Where a stored payload is -/

/-- The payload is in the pending map, held by a task that is about to forward it or to put it
back, handed to forwarding, or evicted. -/
def Accounted (st : UdpLoop S) (d : Datagram) : Prop :=
  (∃ k p, st.pending.lookup k = some p ∧ d ∈ p.replay.datagrams) ∨
  (∃ t, d ∈ (st.tasks t).pc.held) ∨ (∃ k, (k, d) ∈ st.forwarded) ∨ ∃ k, (k, d) ∈ st.evicted

/-- The condition on a step that a packet task which has found a `Ready` session discards no
pending entry: when it reaches `pending_sniff.remove(&key)`, there is none. -/
def KeepsPending (st : UdpLoop S) (a : LoopAction) : Prop :=
  ∀ t now direct s, a = .advance t now direct → (st.tasks t).pc = .readyHit s →
    st.pending.lookup (st.tasks t).spec.key = none

theorem held_decisionPc (decision : SniffDecision S) :
    (decisionPc decision).held = decision.datagrams := by
  cases decision with
  | forward calls => rfl
  | store p => rfl

theorem cached_eq {k : UdpSessionKey} {p : PendingUdpSniff S} (h : st.pending.lookup k = some p) :
    st.cached k = p.replay.datagrams := by
  simp [cached, h]

theorem datagrams_decision (cfg : UdpLoopConfig S) (st : UdpLoop S) (t now : ℕ) (direct : Bool) :
    (st.decision cfg t now direct).datagrams =
      st.cached (st.tasks t).spec.key ++ [(st.tasks t).datagram] :=
  handleUdpClientPayload_datagrams _ _ _ _ _ _ _

namespace Accounted

/-- A payload stays accounted for when the task `t` moves on: what it held is accounted for, and
what leaves the pending map is held by the task or evicted. -/
theorem of_task (h : Accounted st d) (htasks : ∀ u, u ≠ t → st'.tasks u = st.tasks u)
    (hpending : ∀ k p, st.pending.lookup k = some p → d ∈ p.replay.datagrams →
      st'.pending.lookup k = some p ∨ d ∈ (st'.tasks t).pc.held ∨ ∃ k, (k, d) ∈ st'.evicted)
    (hheld : d ∈ (st.tasks t).pc.held → Accounted st' d)
    (hforwarded : st.forwarded ⊆ st'.forwarded) (hevicted : st.evicted ⊆ st'.evicted) :
    Accounted st' d := by
  rcases h with ⟨k, p, hk, hd⟩ | ⟨u, hu⟩ | ⟨k, hk⟩ | ⟨k, hk⟩
  · rcases hpending k p hk hd with hk' | hd' | he
    · exact .inl ⟨k, p, hk', hd⟩
    · exact .inr (.inl ⟨t, hd'⟩)
    · exact .inr (.inr (.inr he))
  · rcases eq_or_ne u t with rfl | hut
    · exact hheld hu
    · exact .inr (.inl ⟨u, by rw [htasks u hut]; exact hu⟩)
  · exact .inr (.inr (.inl ⟨k, hforwarded hk⟩))
  · exact .inr (.inr (.inr ⟨k, hevicted hk⟩))

/-- A task moves on with what it held. -/
theorem setTaskPc {pc : TaskPc S} (h : Accounted st d)
    (hheld : (st.tasks t).pc.held ⊆ pc.held) : Accounted (st.setTaskPc t pc) d := by
  refine h.of_task (fun u hu => Function.update_of_ne hu _ _) (fun k p hk _ => .inl hk)
    (fun hd => .inr (.inl ⟨t, ?_⟩)) (List.Subset.refl _) (List.Subset.refl _)
  rw [pc_setTaskPc, if_pos rfl]
  exact hheld hd

theorem spawn (h : Accounted st d) (hidle : (st.tasks st.numTasks).pc = .idle)
    (task : Task S) : Accounted (st.spawn task) d := by
  refine h.of_task (t := st.numTasks) (fun u hu => Function.update_of_ne hu _ _)
    (fun k p hk _ => .inl hk) (fun hd => ?_) (List.Subset.refl _) (List.Subset.refl _)
  rw [hidle] at hd
  cases hd

/-- The entry of `k` leaves the pending map for the hands of the task `t`, which held nothing. -/
theorem takeEntry {pc : TaskPc S} {k : UdpSessionKey} {stored : List Datagram}
    {forwarded : List (UdpSessionKey × Datagram)} (h : Accounted st d)
    (ht : (st.tasks t).pc.held = []) (hpc : st.cached k ⊆ pc.held)
    (hforwarded : st.forwarded ⊆ forwarded) :
    Accounted { st.setTaskPc t pc with pending := st.pending.erase k, stored, forwarded } d := by
  refine h.of_task (t := t) (fun u hu => Function.update_of_ne hu _ _) (fun k' p hk' hd => ?_)
    (fun hd => ?_) hforwarded (List.Subset.refl _)
  · rcases eq_or_ne k' k with rfl | hne
    · right
      left
      rw [← cached_eq hk'] at hd
      change d ∈ ((st.setTaskPc t pc).tasks t).pc.held
      rw [pc_setTaskPc, if_pos rfl]
      exact hpc hd
    · left
      change (st.pending.erase k).lookup k' = some p
      rw [HashMap.lookup_erase_eq_ite, if_neg hne, hk']
  · rw [ht] at hd
    cases hd

/-- **Accounting.** Every step that discards no pending entry on finding a `Ready` session keeps
track of every payload. -/
theorem step {a : LoopAction} (h : Accounted st d) (hloop : LoopInv st) (ha : KeepsPending st a)
    (hs : st.step cfg a = some st') : Accounted st' d := by
  cases Effect.of_step hs with
  | arrive packet payload => exact h.spawn (hloop.fresh_task _ le_rfl) _
  | reapStart now => exact h.spawn (hloop.fresh_task _ le_rfl) _
  | lock t ht | closed t now direct ht | opened t now direct ht | hit t now direct s ht
  | miss t now direct ht | enforceDone t now direct ht | pick t k ht
  | gotSession t now direct i s d calls keys ht | gotError t now direct i e d calls keys ht
  | reapEnd t now direct ht | reapSkip t now direct k keys ht =>
    exact h.setTaskPc (by simp [ht, TaskPc.held])
  | finish t now direct keys ht => exact h.setTaskPc (by simp [ht, TaskPc.held])
  | readyHit t now direct s ht =>
    refine h.takeEntry (by rw [ht]; rfl) ?_ (List.subset_append_left _ _)
    simp [cached, ha t now direct s rfl ht]
  | take t now direct ht =>
    refine h.takeEntry (by rw [ht]; rfl) ?_ (List.Subset.refl _)
    rw [held_decisionPc, datagrams_decision]
    exact List.subset_append_left _ _
  | insert t now direct p ht =>
    refine h.of_task (t := t) (fun u hu => Function.update_of_ne hu _ _) (fun k q hk hd => .inl ?_)
      (fun hd => .inl ⟨(st.tasks t).spec.key, p, ?_, ?_⟩) (List.Subset.refl _)
      (List.Subset.refl _)
    · change (st.pending.insert (st.tasks t).spec.key p).lookup k = some q
      rw [HashMap.lookup_insert_eq_ite, if_neg]
      · exact hk
      · rintro rfl
        rw [hloop.insert_none t p ht] at hk
        cases hk
    · change (st.pending.insert (st.tasks t).spec.key p).lookup _ = some p
      rw [HashMap.lookup_insert_eq_ite, if_pos rfl]
    · rw [ht] at hd
      exact hd
  | evict t now direct k ht =>
    refine h.of_task (t := t) (fun u hu => Function.update_of_ne hu _ _) (fun k' q hk' hd => ?_)
      (fun hd => ?_) (List.Subset.refl _) (List.subset_append_left _ _)
    · rcases eq_or_ne k' k with rfl | hne
      · refine .inr (.inr ⟨k', List.mem_append_right _ ?_⟩)
        rw [cached_eq hk']
        exact List.mem_map.mpr ⟨d, hd, rfl⟩
      · left
        change (st.pending.erase k).lookup k' = some q
        rw [HashMap.lookup_erase_eq_ite, if_neg hne, hk']
    · rw [ht] at hd
      cases hd
  | call t now direct spec e calls keys rt ht =>
    refine h.of_task (t := t) (fun u hu => Function.update_of_ne hu _ _) (fun k q hk _ => .inl hk)
      (fun hd => ?_) (List.subset_append_left _ _) (List.Subset.refl _)
    rw [ht] at hd
    rcases List.mem_cons.mp hd with rfl | hd
    · exact .inr (.inr (.inl ⟨spec.key, List.mem_append_right _ List.mem_cons_self⟩))
    · refine .inr (.inl ⟨t, ?_⟩)
      change d ∈ ((st.setTaskPc t _).tasks t).pc.held
      rw [pc_setTaskPc, if_pos rfl]
      exact hd
  | send t now direct s e calls keys rt ht =>
    have hpc : Accounted (st.setTaskPc t (.forward calls keys)) d :=
      h.setTaskPc (by simp [ht, TaskPc.held])
    exact hpc
  | reapTake t now direct k keys p ht hp =>
    refine h.takeEntry (by rw [ht]; rfl) ?_ (List.Subset.refl _)
    rw [cached_eq hp, TaskPc.held, PendingUdpSniff.map_snd_flush]
    exact List.Subset.refl _
  | runtime a rt => exact h

end Accounted

/-- Where a stored payload comes from: it was stored before, or it is in the hands of the task
that has just taken the pending entry. -/
theorem accounted_of_stored {a : LoopAction} (hs : st.step cfg a = some st')
    (hd : d ∈ st'.stored) : d ∈ st.stored ∨ Accounted st' d := by
  cases Effect.of_step hs with
  | take t now direct ht =>
    by_cases hstores : storesDatagram (st.pending.lookup (st.tasks t).spec.key)
        (st.tasks t).datagram now (st.decision cfg t now direct) = true
    · rw [if_pos hstores] at hd
      rcases List.mem_append.mp hd with hd | hd
      · exact .inl hd
      · refine .inr (.inr (.inl ⟨t, ?_⟩))
        change d ∈ ((st.setTaskPc t _).tasks t).pc.held
        rw [pc_setTaskPc, if_pos rfl, held_decisionPc, datagrams_decision]
        exact List.mem_append_right _ hd
    · rw [if_neg hstores] at hd
      exact .inl hd
  | _ => exact .inl hd

/-- **No cached payload is lost.** Take a run in which no packet task that has found a `Ready`
session discards a pending entry. Then every payload ever put into a replay buffer is in the
pending map, held by a task that is about to forward it or to put it back, already handed to
forwarding, or evicted because of the capacity. -/
theorem stored_accounted {timeoutSecs : ℕ}
    (h : Steps (step cfg) KeepsPending (new timeoutSecs) st) : ∀ d ∈ st.stored, Accounted st d := by
  have hboth : LoopInv st ∧ ∀ d ∈ st.stored, Accounted st d := by
    refine h.invariant (I := fun st => LoopInv st ∧ ∀ d ∈ st.stored, Accounted st d)
      ⟨loopInv_new timeoutSecs, fun d hd => by cases hd⟩ ?_
    rintro st a st' ⟨hloop, hacc⟩ ha hs
    refine ⟨hloop.step hs, fun d hd => ?_⟩
    rcases accounted_of_stored hs hd with hd' | hd'
    · exact (hacc d hd').step hloop ha hs
    · exact hd'
  exact hboth.2

/-- A sniffer that always needs more data. -/
def hungrySniffer : UdpLoopConfig Unit where
  sniffers := ⟨[()], fun _ _ => (.needMore .quicSni, ())⟩
  quicSniffMode := .full
  quicSniffPendingTimeoutMs := 200

/-- A packet of a TPROXY flow. -/
def examplePacket : ClientPacket :=
  .tproxy (.v4 ⟨10, 0, 0, 1⟩ 5000) (.v4 ⟨1, 2, 3, 4⟩ 443)

/-- The first packet of a flow is cached. -/
def firstCached : List LoopAction :=
  [.arrive examplePacket [1], .lock 0, .advance 0 0 false, .advance 0 0 false, .advance 0 0 false,
    .advance 0 0 false, .advance 0 0 false]

/-- The first packet of a flow is cached, then reaped and forwarded; the second packet finds the
session and no pending entry. -/
def firstReaped : List LoopAction :=
  firstCached ++
  ([.reap 300, .advance 1 300 false, .advance 1 300 false, .runtime (.advance 0),
    .runtime (.advance 0), .runtime (.connect 0 (.connected .socks5 0)), .runtime (.recvStart 0),
    .runtime (.ready 0), .runtime (.advance 0), .runtime (.advance 0), .advance 1 300 false,
    .advance 1 300 false, .advance 1 300 false, .advance 1 300 false, .advance 1 300 false,
    .arrive examplePacket [2], .lock 2, .advance 2 310 false, .advance 2 310 false,
    .advance 2 310 false] : List LoopAction)

/-- `KeepsPending` as a check. -/
def keepsPending (st : UdpLoop S) : LoopAction → Bool
  | .advance t _ _ =>
    match (st.tasks t).pc with
    | .readyHit _ => (st.pending.lookup (st.tasks t).spec.key).isNone
    | _ => true
  | _ => true

theorem keepsPending_of_check (st : UdpLoop S) (a : LoopAction) (h : keepsPending st a = true) :
    KeepsPending st a := by
  rintro t now direct s rfl ht
  simpa [keepsPending, ht] using h

theorem stored_accounted_firstReaped :
    ∃ st, Steps (step hungrySniffer) KeepsPending (new 60) st ∧ ⟨0, [1]⟩ ∈ st.stored ∧
      Accounted st ⟨0, [1]⟩ := by
  obtain ⟨st, hst, hmem⟩ : ∃ st, Steps (step hungrySniffer) KeepsPending (new 60) st ∧
      (⟨0, [1]⟩ : Datagram) ∈ st.stored :=
    exists_steps_of_guarded_run (l := firstReaped) keepsPending_of_check (by decide +kernel)
  exact ⟨st, hst, hmem, stored_accounted hst _ hmem⟩

/-- The task of the second packet of the flow is spawned before the reaper takes the first one's
entry, and stores its packet while the reaper creates the session. The third packet finds the
session and discards the entry of the second. -/
def secondLost : List LoopAction :=
  firstCached ++
  ([.arrive examplePacket [2], .reap 300, .advance 2 300 false, .advance 2 300 false,
    .runtime (.advance 0), .runtime (.advance 0),
    .lock 1, .advance 1 300 false, .advance 1 300 false, .advance 1 300 false,
    .advance 1 300 false, .advance 1 300 false,
    .runtime (.connect 0 (.connected .socks5 0)), .runtime (.recvStart 0), .runtime (.ready 0),
    .runtime (.advance 0), .runtime (.advance 0),
    .advance 2 300 false, .advance 2 300 false, .advance 2 300 false, .advance 2 300 false,
    .advance 2 300 false,
    .arrive examplePacket [3], .lock 3, .advance 3 310 false, .advance 3 310 false,
    .advance 3 310 false] : List LoopAction)

theorem stored_lost : ∃ st, Reachable (step hungrySniffer) (new 60) st ∧
    ⟨1, [2]⟩ ∈ st.stored ∧ ¬ Accounted st ⟨1, [2]⟩ := by
  obtain ⟨st, hst, hmem, hpending, hheld, hforwarded, hevicted⟩ :
      ∃ st, Reachable (step hungrySniffer) (new 60) st ∧ ((⟨1, [2]⟩ : Datagram) ∈ st.stored ∧
        (∀ e ∈ st.pending.toList, (⟨1, [2]⟩ : Datagram) ∉ e.2.replay.datagrams) ∧
        (∀ t < st.numTasks, (⟨1, [2]⟩ : Datagram) ∉ (st.tasks t).pc.held) ∧
        (∀ e ∈ st.forwarded, e.2 ≠ ⟨1, [2]⟩) ∧ ∀ e ∈ st.evicted, e.2 ≠ ⟨1, [2]⟩) :=
    exists_steps_of_run (l := secondLost) (fun _ _ _ => trivial) (by decide +kernel)
  refine ⟨st, hst, hmem, ?_⟩
  rintro (⟨k, p, hk, hd⟩ | ⟨t, ht⟩ | ⟨k, hk⟩ | ⟨k, hk⟩)
  · exact hpending (k, p) (st.pending.mem_toList.mpr hk) hd
  · rcases lt_or_ge t st.numTasks with hlt | hge
    · exact hheld t hlt ht
    · rw [(loopInv_of_steps hst).fresh_task t hge] at ht
      cases ht
  · exact hforwarded _ hk rfl
  · exact hevicted _ hk rfl

end UdpLoop

end XtpRs.Udp
