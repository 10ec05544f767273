import XtpRs.Udp.Pending
import XtpRs.Udp.Effect

/-!
# The UDP receive loop as a step system

One receive loop of `src/udp/mod.rs` (`run_udp_loop` or `run_udp_port_forward`) with its pending
map, over the shared `UdpRuntime`. For each packet the loop spawns a task that takes the lock of
the packet's key and runs `handle_udp_client_payload`; between packets it runs
`reap_pending_udp_sniff` inline, without any key lock, and no packet is taken in while that runs.

As in `XtpRs.Udp.Runtime` one step is one access to shared state: the pending map, the session
map, or a call of `get_or_create_udp_session`, whose own steps are steps of the runtime. The
clock, the routing decision of `should_direct` and the entry evicted among several of the same
age are part of the action.

The fields `arrived`, `stored`, `forwarded`, `evicted` and `sent` are a record of the run: the
payloads taken in, those put into a replay buffer, those handed to `forward_udp_payload` or
`forward_udp_payload_to_session`, those dropped by `enforce_pending_udp_sniff_capacity`, and the
packets emitted by `send_payload`.

## Main definitions

* `TaskPc`, `Task`, `UdpLoop`: the tasks of the loop and the state.
* `LoopAction`, `UdpLoop.step`: the step function.
-/

namespace XtpRs.Udp

open Lib Sniff

/-- A packet received by a loop, with what its specification is built from. -/
inductive ClientPacket
  | tproxy (clientAddr origDst : SocketAddr)
  | portForward (listenAddr clientAddr remote : SocketAddr) (listenSock : ℕ)
  deriving DecidableEq, Repr

/-- The specification built by `run_udp_loop` and by `run_udp_port_forward`. -/
def ClientPacket.spec : ClientPacket → UdpSessionSpec
  | tproxy clientAddr origDst => .forTproxy clientAddr origDst
  | portForward listenAddr clientAddr remote listenSock =>
    .forPortForward listenAddr clientAddr remote listenSock

/-- The program points of a packet task and of a reaper. `calls` are the payloads still to be
forwarded, `keys` the expired keys a reaper has yet to visit. -/
inductive TaskPc (S : Type)
  | idle
  /-- Spawned; awaiting the lock of its key. -/
  | locking
  | checkClosed
  /-- About to look up a `Ready` session. -/
  | readyLookup
  /-- A `Ready` session was found; about to remove the pending entry. -/
  | readyHit (session : SessionId)
  /-- No `Ready` session was found; about to take the pending entry. -/
  | takePending
  /-- About to insert a pending entry. -/
  | insert (pending : PendingUdpSniff S)
  /-- Inside `enforce_pending_udp_sniff_capacity`; `victim` is about to be removed. -/
  | enforce (victim : Option UdpSessionKey)
  /-- About to call `forward_udp_payload` for the first of `calls`. -/
  | forward (calls : List (UdpSessionSpec × Datagram)) (keys : List UdpSessionKey)
  /-- Awaiting `get_or_create_udp_session`. -/
  | await (call : ℕ) (datagram : Datagram) (calls : List (UdpSessionSpec × Datagram))
      (keys : List UdpSessionKey)
  /-- About to send over a session. -/
  | send (session : SessionId) (datagram : Datagram) (calls : List (UdpSessionSpec × Datagram))
      (keys : List UdpSessionKey)
  /-- About to remove the pending entry of the first of `keys`. -/
  | reap (keys : List UdpSessionKey)
  | done

/-- A packet task, or a run of `reap_pending_udp_sniff`. -/
structure Task (S : Type) where
  spec : UdpSessionSpec
  datagram : Datagram
  reaper : Bool
  pc : TaskPc S

namespace Task

variable {S : Type}

def isDone (t : Task S) : Bool :=
  match t.pc with
  | .done => true
  | _ => false

/-- The task holds the lock of its key. -/
def holdsLock (t : Task S) : Bool :=
  !t.reaper &&
    match t.pc with
    | .idle | .locking | .done => false
    | _ => true

end Task

/-- What the handlers read of the `AppState`. -/
structure UdpLoopConfig (S : Type) where
  sniffers : UdpSniffers S
  quicSniffMode : QuicSniffMode
  quicSniffPendingTimeoutMs : ℕ

/-- The loop with its pending map, its tasks, the runtime, and the record of the run. -/
structure UdpLoop (S : Type) where
  rt : UdpRuntime
  pending : HashMap UdpSessionKey (PendingUdpSniff S)
  tasks : ℕ → Task S
  numTasks : ℕ
  arrived : List (UdpSessionKey × Datagram)
  stored : List Datagram
  forwarded : List (UdpSessionKey × Datagram)
  evicted : List (UdpSessionKey × Datagram)
  sent : List (UdpSessionKey × Emission)

/-- One step of the loop, of one of its tasks or of the runtime. -/
inductive LoopAction
  /-- A packet is taken in and its task spawned. -/
  | arrive (packet : ClientPacket) (payload : Bytes)
  /-- `reap_pending_udp_sniff` collects the expired keys. -/
  | reap (now : ℕ)
  /-- A packet task acquires the lock of its key. -/
  | lock (task : ℕ)
  /-- A task takes its next step. -/
  | advance (task : ℕ) (now : ℕ) (direct : Bool)
  /-- `enforce_pending_udp_sniff_capacity` picks the entry to drop. -/
  | evict (task : ℕ) (victim : UdpSessionKey)
  /-- A step of the runtime. -/
  | runtime (a : Action)
  deriving DecidableEq, Repr

namespace UdpLoop

variable {S : Type} (cfg : UdpLoopConfig S)

/-- A loop that has taken in nothing. -/
def new (timeoutSecs : ℕ) : UdpLoop S where
  rt := .new timeoutSecs
  pending := ∅
  tasks _ := ⟨default, ⟨0, []⟩, false, .idle⟩
  numTasks := 0
  arrived := []
  stored := []
  forwarded := []
  evicted := []
  sent := []

def setTaskPc (st : UdpLoop S) (t : ℕ) (pc : TaskPc S) : UdpLoop S :=
  { st with tasks := Function.update st.tasks t { st.tasks t with pc } }

/-- A new task with the next number. -/
def spawn (st : UdpLoop S) (task : Task S) : UdpLoop S :=
  { st with
    tasks := Function.update st.tasks st.numTasks task
    numTasks := st.numTasks + 1 }

/-- No `reap_pending_udp_sniff` is running. -/
def noReaper (st : UdpLoop S) : Bool :=
  decide (∀ t < st.numTasks, (st.tasks t).reaper → (st.tasks t).isDone)

/-- The lock of the task's key is free. -/
def lockFree (st : UdpLoop S) (t : ℕ) : Bool :=
  decide (∀ u < st.numTasks, (st.tasks u).spec.key = (st.tasks t).spec.key →
    ¬ (st.tasks u).holdsLock)

/-- The payloads of a pending entry. -/
def cached (st : UdpLoop S) (k : UdpSessionKey) : List Datagram :=
  ((st.pending.lookup k).map fun p => p.replay.datagrams).getD []

/-- The expired keys, in the order of iteration. -/
def expiredKeys (st : UdpLoop S) (now : ℕ) : List UdpSessionKey :=
  (st.pending.toList.filter fun e => e.2.expired now).map Prod.fst

/-- Some entry with the smallest deadline is the one of the key. -/
def isOldest (st : UdpLoop S) (k : UdpSessionKey) : Bool :=
  match st.pending.lookup k with
  | some p => st.pending.toList.all fun e => p.deadline ≤ e.2.deadline
  | none => false

/-- The program point at which a packet task carries out a decision. -/
def decisionPc : SniffDecision S → TaskPc S
  | .forward calls => .forward calls []
  | .store p => .insert p

/-- The next step of a task; `none` while it is suspended or when it has ended. -/
def advanceTask (st : UdpLoop S) (t now : ℕ) (direct : Bool) : Option (UdpLoop S) :=
  let task := st.tasks t
  let key := task.spec.key
  match task.pc with
  | .checkClosed => some (st.setTaskPc t (if st.rt.closed then .done else .readyLookup))
  | .readyLookup =>
    match st.rt.getReadyUdpSession key with
    | some s => some (st.setTaskPc t (.readyHit s))
    | none => some (st.setTaskPc t .takePending)
  | .readyHit s =>
    some { st.setTaskPc t (.send s task.datagram [] []) with
      pending := st.pending.erase key
      forwarded := st.forwarded ++ [(key, task.datagram)] }
  | .takePending =>
    let taken := st.pending.lookup key
    let decision := handleUdpClientPayload cfg.sniffers cfg.quicSniffMode
      cfg.quicSniffPendingTimeoutMs taken task.spec task.datagram now direct
    some { st.setTaskPc t (decisionPc decision) with
      pending := st.pending.erase key
      stored := if storesDatagram taken task.datagram now decision then
        st.stored ++ [task.datagram] else st.stored }
  | .insert p =>
    some { st.setTaskPc t (.enforce none) with pending := st.pending.insert key p }
  | .enforce none =>
    if st.pending.size ≤ udpSniffMaxPendingSessions then some (st.setTaskPc t .done) else none
  | .enforce (some victim) =>
    some { st.setTaskPc t (.enforce none) with
      pending := st.pending.erase victim
      evicted := st.evicted ++ (st.cached victim).map fun d => (victim, d) }
  | .forward [] keys => some (st.setTaskPc t (if task.reaper then .reap keys else .done))
  | .forward ((spec, d) :: calls) keys =>
    (st.rt.step (.call spec task.reaper)).map fun rt =>
      { st.setTaskPc t (.await st.rt.numCalls d calls keys) with
        rt
        forwarded := st.forwarded ++ [(spec.key, d)] }
  | .await i d calls keys =>
    match (st.rt.calls i).pc with
    | .returned (.ok s) => some (st.setTaskPc t (.send s d calls keys))
    | .returned (.error _) => some (st.setTaskPc t (.forward calls keys))
    | _ => none
  | .send s d calls keys =>
    (st.rt.step (.touch s now)).map fun rt =>
      { st.setTaskPc t (.forward calls keys) with
        rt
        sent := st.sent ++ ((st.rt.heap s).sendPayload d.payload).toList.map fun e =>
          ((st.rt.heap s).key, e) }
  | .reap [] => some (st.setTaskPc t (.enforce none))
  | .reap (k :: keys) =>
    match st.pending.lookup k with
    | some p => some { st.setTaskPc t (.forward p.flush keys) with pending := st.pending.erase k }
    | none => some (st.setTaskPc t (.reap keys))
  | .idle | .locking | .done => none

/-- Whether a step of the runtime is a step of its own here: calls are begun by the tasks, and
the loop is not aborted. -/
def ownStep : Action → Bool
  | .call _ _ | .abort _ => false
  | _ => true

/-- One step. -/
def step (st : UdpLoop S) : LoopAction → Option (UdpLoop S)
  | .arrive packet payload =>
    if st.noReaper ∧ payload ≠ [] then
      let d : Datagram := ⟨st.numTasks, payload⟩
      some { st.spawn ⟨packet.spec, d, false, .locking⟩ with
        arrived := st.arrived ++ [(packet.spec.key, d)] }
    else none
  | .reap now =>
    if st.noReaper then
      some (st.spawn ⟨default, ⟨st.numTasks, []⟩, true, .reap (st.expiredKeys now)⟩)
    else none
  | .lock t =>
    match (st.tasks t).pc with
    | .locking => if st.lockFree t then some (st.setTaskPc t .checkClosed) else none
    | _ => none
  | .advance t now direct => st.advanceTask cfg t now direct
  | .evict t k =>
    match (st.tasks t).pc with
    | .enforce none =>
      if udpSniffMaxPendingSessions < st.pending.size ∧ st.isOldest k then
        some (st.setTaskPc t (.enforce (some k)))
      else none
    | _ => none
  | .runtime a =>
    if ownStep a then (st.rt.step a).map fun rt => { st with rt } else none

/-! ### The transitions -/

/-- The decision a packet task takes when it finds no `Ready` session. -/
def decision (st : UdpLoop S) (t now : ℕ) (direct : Bool) : SniffDecision S :=
  handleUdpClientPayload cfg.sniffers cfg.quicSniffMode cfg.quicSniffPendingTimeoutMs
    (st.pending.lookup (st.tasks t).spec.key) (st.tasks t).spec (st.tasks t).datagram now direct

/-- The transitions of the loop: the guard of each, its action and the state after it. -/
inductive Effect (st : UdpLoop S) : LoopAction → UdpLoop S → Prop
  | arrive (packet : ClientPacket) (payload : Bytes) (hreaper : st.noReaper = true) :
      Effect st (.arrive packet payload)
        { st.spawn ⟨packet.spec, ⟨st.numTasks, payload⟩, false, .locking⟩ with
          arrived := st.arrived ++ [(packet.spec.key, ⟨st.numTasks, payload⟩)] }
  | reapStart (now : ℕ) (hreaper : st.noReaper = true) :
      Effect st (.reap now)
        (st.spawn ⟨default, ⟨st.numTasks, []⟩, true, .reap (st.expiredKeys now)⟩)
  | lock (t : ℕ) (ht : (st.tasks t).pc = .locking) (hfree : st.lockFree t = true) :
      Effect st (.lock t) (st.setTaskPc t .checkClosed)
  | closed (t now : ℕ) (direct : Bool) (ht : (st.tasks t).pc = .checkClosed)
      (hclosed : st.rt.closed = true) : Effect st (.advance t now direct) (st.setTaskPc t .done)
  | opened (t now : ℕ) (direct : Bool) (ht : (st.tasks t).pc = .checkClosed) :
      Effect st (.advance t now direct) (st.setTaskPc t .readyLookup)
  | hit (t now : ℕ) (direct : Bool) (s : SessionId) (ht : (st.tasks t).pc = .readyLookup)
      (hs : st.rt.entry (st.tasks t).spec.key = some (.ready s)) :
      Effect st (.advance t now direct) (st.setTaskPc t (.readyHit s))
  | miss (t now : ℕ) (direct : Bool) (ht : (st.tasks t).pc = .readyLookup)
      (hs : ∀ s, st.rt.entry (st.tasks t).spec.key ≠ some (.ready s)) :
      Effect st (.advance t now direct) (st.setTaskPc t .takePending)
  | readyHit (t now : ℕ) (direct : Bool) (s : SessionId) (ht : (st.tasks t).pc = .readyHit s) :
      Effect st (.advance t now direct)
        { st.setTaskPc t (.send s (st.tasks t).datagram [] []) with
          pending := st.pending.erase (st.tasks t).spec.key
          forwarded := st.forwarded ++ [((st.tasks t).spec.key, (st.tasks t).datagram)] }
  | take (t now : ℕ) (direct : Bool) (ht : (st.tasks t).pc = .takePending) :
      Effect st (.advance t now direct)
        { st.setTaskPc t (decisionPc (st.decision cfg t now direct)) with
          pending := st.pending.erase (st.tasks t).spec.key
          stored := if storesDatagram (st.pending.lookup (st.tasks t).spec.key)
              (st.tasks t).datagram now (st.decision cfg t now direct) then
            st.stored ++ [(st.tasks t).datagram] else st.stored }
  | insert (t now : ℕ) (direct : Bool) (p : PendingUdpSniff S)
      (ht : (st.tasks t).pc = .insert p) :
      Effect st (.advance t now direct)
        { st.setTaskPc t (.enforce none) with
          pending := st.pending.insert (st.tasks t).spec.key p }
  | enforceDone (t now : ℕ) (direct : Bool) (ht : (st.tasks t).pc = .enforce none) :
      Effect st (.advance t now direct) (st.setTaskPc t .done)
  | pick (t : ℕ) (k : UdpSessionKey) (ht : (st.tasks t).pc = .enforce none) :
      Effect st (.evict t k) (st.setTaskPc t (.enforce (some k)))
  | evict (t now : ℕ) (direct : Bool) (k : UdpSessionKey)
      (ht : (st.tasks t).pc = .enforce (some k)) :
      Effect st (.advance t now direct)
        { st.setTaskPc t (.enforce none) with
          pending := st.pending.erase k
          evicted := st.evicted ++ (st.cached k).map fun d => (k, d) }
  | finish (t now : ℕ) (direct : Bool) (keys : List UdpSessionKey)
      (ht : (st.tasks t).pc = .forward [] keys) :
      Effect st (.advance t now direct)
        (st.setTaskPc t (if (st.tasks t).reaper then .reap keys else .done))
  | call (t now : ℕ) (direct : Bool) (spec : UdpSessionSpec) (d : Datagram)
      (calls : List (UdpSessionSpec × Datagram)) (keys : List UdpSessionKey) (rt : UdpRuntime)
      (ht : (st.tasks t).pc = .forward ((spec, d) :: calls) keys)
      (hrt : st.rt.step (.call spec (st.tasks t).reaper) = some rt) :
      Effect st (.advance t now direct)
        { st.setTaskPc t (.await st.rt.numCalls d calls keys) with
          rt
          forwarded := st.forwarded ++ [(spec.key, d)] }
  | gotSession (t now : ℕ) (direct : Bool) (i : ℕ) (s : SessionId) (d : Datagram)
      (calls : List (UdpSessionSpec × Datagram)) (keys : List UdpSessionKey)
      (ht : (st.tasks t).pc = .await i d calls keys)
      (hi : (st.rt.calls i).pc = .returned (.ok s)) :
      Effect st (.advance t now direct) (st.setTaskPc t (.send s d calls keys))
  | gotError (t now : ℕ) (direct : Bool) (i : ℕ) (e : GetSessionError) (d : Datagram)
      (calls : List (UdpSessionSpec × Datagram)) (keys : List UdpSessionKey)
      (ht : (st.tasks t).pc = .await i d calls keys)
      (hi : (st.rt.calls i).pc = .returned (.error e)) :
      Effect st (.advance t now direct) (st.setTaskPc t (.forward calls keys))
  | send (t now : ℕ) (direct : Bool) (s : SessionId) (d : Datagram)
      (calls : List (UdpSessionSpec × Datagram)) (keys : List UdpSessionKey) (rt : UdpRuntime)
      (ht : (st.tasks t).pc = .send s d calls keys)
      (hrt : st.rt.step (.touch s now) = some rt) :
      Effect st (.advance t now direct)
        { st.setTaskPc t (.forward calls keys) with
          rt
          sent := st.sent ++ ((st.rt.heap s).sendPayload d.payload).toList.map fun e =>
            ((st.rt.heap s).key, e) }
  | reapEnd (t now : ℕ) (direct : Bool) (ht : (st.tasks t).pc = .reap []) :
      Effect st (.advance t now direct) (st.setTaskPc t (.enforce none))
  | reapTake (t now : ℕ) (direct : Bool) (k : UdpSessionKey) (keys : List UdpSessionKey)
      (p : PendingUdpSniff S) (ht : (st.tasks t).pc = .reap (k :: keys))
      (hp : st.pending.lookup k = some p) :
      Effect st (.advance t now direct)
        { st.setTaskPc t (.forward p.flush keys) with pending := st.pending.erase k }
  | reapSkip (t now : ℕ) (direct : Bool) (k : UdpSessionKey) (keys : List UdpSessionKey)
      (ht : (st.tasks t).pc = .reap (k :: keys)) (hp : st.pending.lookup k = none) :
      Effect st (.advance t now direct) (st.setTaskPc t (.reap keys))
  | runtime (a : Action) (rt : UdpRuntime) (ha : ownStep a = true)
      (hrt : st.rt.step a = some rt) : Effect st (.runtime a) { st with rt }

namespace Effect

variable {cfg} {st st' : UdpLoop S}

theorem getReadyUdpSession_eq_some {rt : UdpRuntime} {k : UdpSessionKey} {s : SessionId} :
    rt.getReadyUdpSession k = some s ↔ rt.entry k = some (.ready s) := by
  unfold UdpRuntime.getReadyUdpSession
  split
  · rename_i t ht
    simp [ht]
  · rename_i hne
    simp only [reduceCtorEq, false_iff]
    exact hne s

theorem of_advanceTask {t now : ℕ} {direct : Bool}
    (hs : st.advanceTask cfg t now direct = some st') :
    Effect cfg st (.advance t now direct) st' := by
  simp only [advanceTask] at hs
  split at hs
  case h_1 ht =>
    cases hs
    split_ifs with hclosed
    · exact .closed t now direct ht hclosed
    · exact .opened t now direct ht
  case h_2 ht =>
    split at hs
    · rename_i s hready
      cases hs
      exact .hit t now direct s ht (getReadyUdpSession_eq_some.mp hready)
    · rename_i hnone
      cases hs
      refine .miss t now direct ht fun s hready => ?_
      rw [getReadyUdpSession_eq_some.mpr hready] at hnone
      cases hnone
  case h_3 s ht =>
    cases hs
    exact .readyHit t now direct s ht
  case h_4 ht =>
    cases hs
    exact .take t now direct ht
  case h_5 p ht =>
    cases hs
    exact .insert t now direct p ht
  case h_6 ht =>
    split_ifs at hs
    cases hs
    exact .enforceDone t now direct ht
  case h_7 k ht =>
    cases hs
    exact .evict t now direct k ht
  case h_8 keys ht =>
    cases hs
    exact .finish t now direct keys ht
  case h_9 spec d calls keys ht =>
    obtain ⟨rt, hrt, rfl⟩ := Option.map_eq_some_iff.mp hs
    exact .call t now direct spec d calls keys rt ht hrt
  case h_10 i d calls keys ht =>
    split at hs
    · rename_i s hi
      cases hs
      exact .gotSession t now direct i s d calls keys ht hi
    · rename_i e hi
      cases hs
      exact .gotError t now direct i e d calls keys ht hi
    · cases hs
  case h_11 s d calls keys ht =>
    obtain ⟨rt, hrt, rfl⟩ := Option.map_eq_some_iff.mp hs
    exact .send t now direct s d calls keys rt ht hrt
  case h_12 ht =>
    cases hs
    exact .reapEnd t now direct ht
  case h_13 k keys ht =>
    split at hs
    · rename_i p hp
      cases hs
      exact .reapTake t now direct k keys p ht hp
    · rename_i hp
      cases hs
      exact .reapSkip t now direct k keys ht hp
  case h_14 | h_15 | h_16 => cases hs

/-- **Step inversion.** A step of the loop is one of the listed transitions. -/
theorem of_step {a : LoopAction} (hs : st.step cfg a = some st') : Effect cfg st a st' := by
  cases a with
  | arrive packet payload =>
    simp only [step] at hs
    split_ifs at hs with h
    cases hs
    exact .arrive packet payload h.1
  | reap now =>
    simp only [step] at hs
    split_ifs at hs with h
    cases hs
    exact .reapStart now h
  | lock t =>
    simp only [step] at hs
    split at hs
    · rename_i ht
      split_ifs at hs with hfree
      cases hs
      exact .lock t ht hfree
    · cases hs
  | advance t now direct => exact of_advanceTask hs
  | evict t k =>
    simp only [step] at hs
    split at hs
    · rename_i ht
      split_ifs at hs
      cases hs
      exact .pick t k ht
    · cases hs
  | runtime a =>
    simp only [step] at hs
    split_ifs at hs with ha
    obtain ⟨rt, hrt, rfl⟩ := Option.map_eq_some_iff.mp hs
    exact .runtime a rt ha hrt

end Effect

end UdpLoop

end XtpRs.Udp
