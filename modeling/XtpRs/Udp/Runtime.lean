import XtpRs.Lib.Run
import XtpRs.Udp.Session

/-!
# The session map of the UDP runtime as a step system

`UdpRuntime` of `src/udp/mod.rs` owns the map from `UdpSessionKey` to `UdpSessionEntry` behind an
async mutex. It is changed by any number of concurrent calls of `get_or_create_udp_session`, by
the detached tasks these calls spawn (`create_udp_session` and the receive task of each session),
by `cleanup_expired_sessions` passes and by `shutdown`. This file models all of them as one step
system (`UdpRuntime.step`); any interleaving is a list of `Action`s.

One step is one section under the map lock, or one access to shared state outside it. Code
between two such points that touches only local variables belongs to the step before it. Hence
the map operations of one critical section, with the notifications and cancellations done while
the lock is held, form one step; and where the source drops the lock before it calls
`notify_waiters` (the path of a failed join) the notification is a step of its own.

`tokio::sync::Notify::notify_waiters` wakes exactly the `Notified` futures created before the call.
A waiting call records whether its future has been woken, and `wake n` marks the waiting calls
of `n`. A task aborted through its `JoinHandle` stops at an await point; the creation it had
handed to `tokio::spawn` keeps running.

## Main definitions

* `CallPc`, `CreateTask`, `GcPass`, `ShutdownCall`: the program points of the tasks.
* `UdpRuntime`: the shared state with all tasks; `UdpRuntime.new`.
* `Action`, `UdpRuntime.step`: the step function.
-/

namespace XtpRs.Udp

open Lib

/-- The identity of an `Arc<UdpSession>`. -/
abbrev SessionId := ℕ

/-- The identity of an `Arc<Notify>`. -/
abbrev NotifyId := ℕ

/-- `UdpSessionEntry`. -/
inductive UdpSessionEntry
  | creating (notify : NotifyId)
  | ready (session : SessionId)
  deriving DecidableEq, Repr

/-- The errors of `get_or_create_udp_session`. -/
inductive GetSessionError
  | shuttingDown
  | creationPanicked
  | exitedBeforeRegistration
  /-- The error of `create_udp_session` (socket, upstream selection or SOCKS5 association). -/
  | createFailed
  deriving DecidableEq, Repr

/-- A spawned `create_udp_session`. -/
inductive CreateTask
  | unused
  /-- Selecting the outbound: nothing created yet. -/
  | connecting
  /-- The session exists and its receive task is spawned; awaiting `ready_rx`. -/
  | awaitingReady (session : SessionId)
  | succeeded (session : SessionId)
  | failed
  | panicked
  deriving DecidableEq, Repr

/-- The session a creation has built. -/
def CreateTask.session? : CreateTask → Option SessionId
  | awaitingReady s | succeeded s => some s
  | _ => none

/-- The creation task has not ended. -/
def CreateTask.Running (t : CreateTask) : Prop :=
  t = connecting ∨ ∃ s, t = awaitingReady s

instance : DecidablePred CreateTask.Running
  | .connecting => isTrue (.inl rfl)
  | .awaitingReady s => isTrue (.inr ⟨s, rfl⟩)
  | .unused | .succeeded _ | .failed | .panicked => isFalse (by simp [CreateTask.Running])

/-- The program points of a call of `get_or_create_udp_session`. -/
inductive CallPc
  | idle
  /-- About to read `closed` without the lock. -/
  | checkClosed
  /-- Head of the loop: awaiting the map lock. -/
  | lockMap
  /-- Awaiting a `Notified` future of `notify`. -/
  | waiting (notify : NotifyId) (woken : Bool)
  /-- Its `Creating(notify)` entry is inserted; awaiting the `JoinHandle` of `creation`. -/
  | joining (notify : NotifyId) (creation : ℕ)
  /-- The creation was joined; awaiting the map lock to publish its result. -/
  | publishing (notify : NotifyId) (creation : ℕ)
  /-- The join failed; awaiting the map lock to remove the entry. -/
  | removing (notify : NotifyId)
  /-- The join failed and the entry is removed; the lock is dropped, the notification is next. -/
  | notifying (notify : NotifyId)
  /-- The runtime was closed: the created session is cancelled, its receive task is aborted
  next. -/
  | abortingRecv (session : SessionId)
  | returned (result : Except GetSessionError SessionId)
  | aborted
  deriving DecidableEq, Repr

/-- The creation whose result a call will publish. -/
def CallPc.creation? : CallPc → Option ℕ
  | joining _ c | publishing _ c => some c
  | _ => none

/-- The `Notify` of the `Creating` entry a call has inserted and not yet replaced or removed. -/
def CallPc.owned? : CallPc → Option NotifyId
  | joining n _ | publishing n _ | removing n => some n
  | _ => none

/-- The points at which a call is suspended in an `.await`. -/
def CallPc.atAwait : CallPc → Bool
  | lockMap | waiting _ _ | joining _ _ | publishing _ _ | removing _ | abortingRecv _ => true
  | _ => false

/-- A call of `get_or_create_udp_session`; `listener` when it runs inline in a listener task,
which `TaskGuard::shutdown` may abort. -/
structure Call where
  spec : UdpSessionSpec
  listener : Bool
  pc : CallPc

/-- Marks a future of `n` as woken. -/
def Call.wake (n : NotifyId) (c : Call) : Call :=
  if c.pc = .waiting n false then { c with pc := .waiting n true } else c

/-- A spawned creation with its specification. -/
structure Creation where
  spec : UdpSessionSpec
  task : CreateTask

/-- A pass of `cleanup_expired_sessions`. -/
inductive GcPass
  | idle
  /-- The snapshot is taken; `rest` is still to be checked, `expired` was found expired. -/
  | checking (now : ℕ) (rest expired : List (UdpSessionKey × SessionId))
  /-- The expired sessions are removed; their receive tasks are aborted one by one. -/
  | aborting (rest : List SessionId)
  | done
  deriving DecidableEq, Repr

/-- A call of `UdpRuntime::shutdown`. -/
inductive ShutdownCall
  | idle
  /-- `closed` is set; awaiting the map lock. -/
  | locking
  /-- The map is cleared; joining the receive tasks of the sessions that were in it. -/
  | reaping (ok : Bool) (rest : List SessionId)
  | returned (ok : Bool)
  deriving DecidableEq, Repr

/-- `UdpRuntime` with the objects it shares and all tasks that use it. `drained` records that
some `shutdown` has held the map lock. -/
structure UdpRuntime where
  timeoutSecs : ℕ
  closed : Bool
  sessions : HashMap UdpSessionKey UdpSessionEntry
  heap : SessionId → UdpSession
  numSessions : ℕ
  numNotifies : ℕ
  calls : ℕ → Call
  numCalls : ℕ
  creations : ℕ → Creation
  numCreations : ℕ
  gcs : ℕ → GcPass
  numGcs : ℕ
  shutdowns : ℕ → ShutdownCall
  numShutdowns : ℕ
  drained : Bool

/-- The outcome of the connecting phase of `create_udp_session`. -/
inductive ConnectOutcome
  | connected (outbound : UdpOutbound) (now : ℕ)
  | failed
  | panicked
  deriving DecidableEq, Repr

/-- One step of one task. -/
inductive Action
  /-- A call of `get_or_create_udp_session` begins. -/
  | call (spec : UdpSessionSpec) (listener : Bool)
  /-- The call takes its next step. -/
  | advance (call : ℕ)
  /-- The task that runs the call is aborted at an await point. -/
  | abort (call : ℕ)
  /-- `create_udp_session` ends its connecting phase. -/
  | connect (creation : ℕ) (outcome : ConnectOutcome)
  /-- `create_udp_session` receives on `ready_rx` and returns the session. -/
  | ready (creation : ℕ)
  /-- The receive loop sends on `ready_tx`. -/
  | recvStart (session : SessionId)
  /-- The receive task cancels the session. Its loop has returned before; between the two nothing
  shared is touched, so the end of the loop is placed here. -/
  | recvExit (session : SessionId)
  /-- The receive task takes the map lock and removes its own entry. -/
  | recvRemove (session : SessionId)
  /-- A payload sent or received renews the session. -/
  | touch (session : SessionId) (now : ℕ)
  /-- `cleanup_expired_sessions` takes its snapshot. -/
  | gcSnapshot (now : ℕ)
  /-- It reads `last_seen_secs` of the next session of the snapshot. -/
  | gcCheck (gc : ℕ)
  /-- It takes the map lock again and removes what is still expired. -/
  | gcRemove (gc : ℕ)
  /-- It aborts the next receive task. -/
  | gcAbort (gc : ℕ)
  /-- The task that runs the pass is aborted. -/
  | gcKill (gc : ℕ)
  /-- A call of `shutdown` sets `closed`. -/
  | shutdown
  /-- It takes the map lock, cancels, notifies and clears. -/
  | shutdownDrain (shutdown : ℕ)
  /-- It joins the next receive task, or aborts it after the timeout. -/
  | shutdownReap (shutdown : ℕ) (timedOut : Bool)
  /-- It returns. -/
  | shutdownReturn (shutdown : ℕ)
  deriving DecidableEq, Repr

namespace UdpRuntime

instance : Inhabited UdpSessionSpec :=
  ⟨.forTproxy (.v4 ⟨0, 0, 0, 0⟩ 0) (.v4 ⟨0, 0, 0, 0⟩ 0)⟩

/-- `UdpRuntime::new`. -/
def new (timeoutSecs : ℕ) : UdpRuntime where
  timeoutSecs
  closed := false
  sessions := ∅
  heap _ := ⟨default, .direct, 0, false, .starting⟩
  numSessions := 0
  numNotifies := 0
  calls _ := ⟨default, false, .idle⟩
  numCalls := 0
  creations _ := ⟨default, .unused⟩
  numCreations := 0
  gcs _ := .idle
  numGcs := 0
  shutdowns _ := .idle
  numShutdowns := 0
  drained := false

/-! ### Accesses to the shared state -/

/-- The entry of a key. -/
abbrev entry (rt : UdpRuntime) (k : UdpSessionKey) : Option UdpSessionEntry :=
  rt.sessions.lookup k

/-- `get_ready_udp_session`. -/
def getReadyUdpSession (rt : UdpRuntime) (k : UdpSessionKey) : Option SessionId :=
  match rt.entry k with
  | some (.ready s) => some s
  | _ => none

def setPc (rt : UdpRuntime) (i : ℕ) (pc : CallPc) : UdpRuntime :=
  { rt with calls := Function.update rt.calls i { rt.calls i with pc } }

def setTask (rt : UdpRuntime) (c : ℕ) (task : CreateTask) : UdpRuntime :=
  { rt with creations := Function.update rt.creations c { rt.creations c with task } }

def setRecv (rt : UdpRuntime) (s : SessionId) (recvTask : RecvTask) : UdpRuntime :=
  { rt with heap := Function.update rt.heap s { rt.heap s with recvTask } }

/-- `session.cancel.cancel()`. -/
def cancel (rt : UdpRuntime) (s : SessionId) : UdpRuntime :=
  { rt with heap := Function.update rt.heap s { rt.heap s with cancelled := true } }

def insertEntry (rt : UdpRuntime) (k : UdpSessionKey) (e : UdpSessionEntry) : UdpRuntime :=
  { rt with sessions := rt.sessions.insert k e }

def removeEntry (rt : UdpRuntime) (k : UdpSessionKey) : UdpRuntime :=
  { rt with sessions := rt.sessions.erase k }

/-- `notify.notify_waiters()`. -/
def notifyWaiters (rt : UdpRuntime) (n : NotifyId) : UdpRuntime :=
  { rt with calls := fun j => (rt.calls j).wake n }

/-- `JoinHandle::abort` of a receive task: it has no effect on a task that has ended. -/
def abortRecv (rt : UdpRuntime) (s : SessionId) : UdpRuntime :=
  rt.setRecv s (if (rt.heap s).recvTask = .finished then .finished else .aborted)

/-! ### `get_or_create_udp_session` -/

/-- The first section under the map lock: reuse, wait, or insert `Creating` and spawn the
creation. -/
def lookupOrReserve (rt : UdpRuntime) (i : ℕ) : UdpRuntime :=
  let spec := (rt.calls i).spec
  if rt.closed then
    rt.setPc i (.returned (.error .shuttingDown))
  else
    match rt.entry spec.key with
    | some (.ready s) => rt.setPc i (.returned (.ok s))
    | some (.creating n) => rt.setPc i (.waiting n false)
    | none =>
      let n := rt.numNotifies
      let c := rt.numCreations
      { (rt.insertEntry spec.key (.creating n)).setPc i (.joining n c) with
        numNotifies := n + 1
        creations := Function.update rt.creations c ⟨spec, .connecting⟩
        numCreations := c + 1 }

/-- The second section under the map lock, with the notification done inside it. -/
def publish (rt : UdpRuntime) (i n c : ℕ) : UdpRuntime :=
  let key := (rt.calls i).spec.key
  if rt.closed then
    let rt' := (rt.removeEntry key).notifyWaiters n
    match (rt.creations c).task with
    | .succeeded s => (rt'.cancel s).setPc i (.abortingRecv s)
    | _ => rt'.setPc i (.returned (.error .shuttingDown))
  else
    match (rt.creations c).task with
    | .succeeded s =>
      if (rt.heap s).cancelled then
        ((rt.removeEntry key).notifyWaiters n).setPc i
          (.returned (.error .exitedBeforeRegistration))
      else
        ((rt.insertEntry key (.ready s)).notifyWaiters n).setPc i (.returned (.ok s))
    | _ => ((rt.removeEntry key).notifyWaiters n).setPc i (.returned (.error .createFailed))

/-- The next step of a call; `none` while it is suspended or when it has ended. -/
def advanceCall (rt : UdpRuntime) (i : ℕ) : Option UdpRuntime :=
  match (rt.calls i).pc with
  | .checkClosed =>
    some (rt.setPc i (if rt.closed then .returned (.error .shuttingDown) else .lockMap))
  | .lockMap => some (rt.lookupOrReserve i)
  | .waiting _ true => some (rt.setPc i .lockMap)
  | .joining n c =>
    match (rt.creations c).task with
    | .succeeded _ | .failed => some (rt.setPc i (.publishing n c))
    | .panicked => some (rt.setPc i (.removing n))
    | _ => none
  | .publishing n c => some (rt.publish i n c)
  | .removing n => some ((rt.removeEntry (rt.calls i).spec.key).setPc i (.notifying n))
  | .notifying n =>
    some ((rt.notifyWaiters n).setPc i (.returned (.error .creationPanicked)))
  | .abortingRecv s => some ((rt.abortRecv s).setPc i (.returned (.error .shuttingDown)))
  | _ => none

/-! ### `create_udp_session` and the receive task -/

/-- The end of the connecting phase. `UdpRoutingMode::ForceSocks5` excludes a direct outbound. -/
def connect (rt : UdpRuntime) (c : ℕ) : ConnectOutcome → Option UdpRuntime
  | .failed => some (rt.setTask c .failed)
  | .panicked => some (rt.setTask c .panicked)
  | .connected outbound now =>
    let spec := (rt.creations c).spec
    if spec.routing = .forceSocks5 ∧ outbound = .direct then
      none
    else
      let s := rt.numSessions
      some { rt.setTask c (.awaitingReady s) with
        heap := Function.update rt.heap s ⟨spec, outbound, now, false, .starting⟩
        numSessions := s + 1 }

/-- The removal in the receive task: only its own entry, compared by pointer. -/
def recvRemove (rt : UdpRuntime) (s : SessionId) : UdpRuntime :=
  let rt' := rt.setRecv s .finished
  if rt.entry (rt.heap s).key = some (.ready s) then
    rt'.removeEntry (rt.heap s).key
  else
    rt'

/-! ### `cleanup_expired_sessions` -/

/-- The snapshot of the `Ready` entries. -/
def readyEntries (rt : UdpRuntime) : List (UdpSessionKey × SessionId) :=
  rt.sessions.toList.filterMap fun
    | (k, .ready s) => some (k, s)
    | (_, .creating _) => none

/-- `now.saturating_sub(last_seen) >= timeout_secs`. -/
def expired (rt : UdpRuntime) (now : ℕ) (s : SessionId) : Bool :=
  rt.timeoutSecs ≤ now - (rt.heap s).lastSeenSecs

/-- Removal of the entries found expired: each is compared by pointer and checked again. Returns
the sessions removed, which are also cancelled. -/
def removeExpired (now : ℕ) :
    List (UdpSessionKey × SessionId) → UdpRuntime → UdpRuntime × List SessionId
  | [], rt => (rt, [])
  | (k, s) :: rest, rt =>
    if rt.entry k = some (.ready s) ∧ rt.expired now s = true then
      let (rt', removed) := removeExpired now rest ((rt.removeEntry k).cancel s)
      (rt', s :: removed)
    else
      removeExpired now rest rt

def setGc (rt : UdpRuntime) (g : ℕ) (gc : GcPass) : UdpRuntime :=
  { rt with gcs := Function.update rt.gcs g gc }

/-! ### `shutdown` -/

/-- Cancels the sessions of a list. -/
def cancelAll : List SessionId → UdpRuntime → UdpRuntime
  | [], rt => rt
  | s :: rest, rt => cancelAll rest (rt.cancel s)

/-- Notifies the waiters of all entries being created. -/
def notifyCreating : List (UdpSessionKey × UdpSessionEntry) → UdpRuntime → UdpRuntime
  | [], rt => rt
  | (_, .creating n) :: rest, rt => notifyCreating rest (rt.notifyWaiters n)
  | (_, .ready _) :: rest, rt => notifyCreating rest rt

def setShutdown (rt : UdpRuntime) (d : ℕ) (call : ShutdownCall) : UdpRuntime :=
  { rt with shutdowns := Function.update rt.shutdowns d call }

/-- The section of `shutdown` under the map lock. -/
def drain (rt : UdpRuntime) (d : ℕ) : UdpRuntime :=
  let readySessions := rt.readyEntries.map Prod.snd
  let rt' := notifyCreating rt.sessions.toList (cancelAll readySessions rt)
  { rt'.setShutdown d (.reaping true readySessions) with sessions := ∅, drained := true }

/-! ### The step function -/

/-- One step of one task. -/
def step (rt : UdpRuntime) : Action → Option UdpRuntime
  | .call spec listener =>
    some { rt with
      calls := Function.update rt.calls rt.numCalls ⟨spec, listener, .checkClosed⟩
      numCalls := rt.numCalls + 1 }
  | .advance i => rt.advanceCall i
  | .abort i =>
    if (rt.calls i).listener ∧ (rt.calls i).pc.atAwait then some (rt.setPc i .aborted) else none
  | .connect c outcome =>
    if (rt.creations c).task = .connecting then rt.connect c outcome else none
  | .ready c =>
    match (rt.creations c).task with
    | .awaitingReady s =>
      if (rt.heap s).recvTask = .starting then none else some (rt.setTask c (.succeeded s))
    | _ => none
  | .recvStart s =>
    if s < rt.numSessions ∧ (rt.heap s).recvTask = .starting then
      some (rt.setRecv s .running)
    else none
  | .recvExit s =>
    if (rt.heap s).recvTask = .running then some ((rt.setRecv s .exited).cancel s) else none
  | .recvRemove s =>
    if (rt.heap s).recvTask = .exited then some (rt.recvRemove s) else none
  | .touch s now =>
    some { rt with heap := Function.update rt.heap s { rt.heap s with lastSeenSecs := now } }
  | .gcSnapshot now =>
    some { rt.setGc rt.numGcs (.checking now rt.readyEntries []) with numGcs := rt.numGcs + 1 }
  | .gcCheck g =>
    match rt.gcs g with
    | .checking now ((k, s) :: rest) expired =>
      some (rt.setGc g (.checking now rest
        (if rt.expired now s then expired ++ [(k, s)] else expired)))
    | _ => none
  | .gcRemove g =>
    match rt.gcs g with
    | .checking _ [] [] => some (rt.setGc g .done)
    | .checking now [] expired =>
      let (rt', removed) := removeExpired now expired rt
      some (rt'.setGc g (.aborting removed))
    | _ => none
  | .gcAbort g =>
    match rt.gcs g with
    | .aborting (s :: rest) => some ((rt.abortRecv s).setGc g (.aborting rest))
    | .aborting [] => some (rt.setGc g .done)
    | _ => none
  | .gcKill g => some (rt.setGc g .done)
  | .shutdown =>
    some { rt.setShutdown rt.numShutdowns .locking with
      closed := true
      numShutdowns := rt.numShutdowns + 1 }
  | .shutdownDrain d =>
    if rt.shutdowns d = .locking then some (rt.drain d) else none
  | .shutdownReap d timedOut =>
    match rt.shutdowns d with
    | .reaping ok (s :: rest) =>
      if timedOut then
        some ((rt.abortRecv s).setShutdown d (.reaping false rest))
      else if (rt.heap s).recvTask = .finished ∨ (rt.heap s).recvTask = .aborted then
        some (rt.setShutdown d (.reaping ok rest))
      else none
    | _ => none
  | .shutdownReturn d =>
    match rt.shutdowns d with
    | .reaping ok [] => some (rt.setShutdown d (.returned ok))
    | _ => none

end UdpRuntime

end XtpRs.Udp
