import XtpRs.Lib.Run
import XtpRs.Config.Listeners

/-!
# Generations and their background tasks

On `SIGHUP`, `reload_config` of `src/main.rs` builds a new `AppState`, a generation, starts its
background tasks, stores it in the `ArcSwap` and shuts the tasks of the old generation down. The
tasks are started by `spawn_all_tasks` and shut down guard by guard by `shutdown_for_reload`, both
of `src/state.rs`.

The cancellation token of a task is a child of the token of its `TaskGuard`. It is set by
`TaskGuard::shutdown`, and when the guard is dropped, which happens with the `AppState`: when the
last `Arc` of the generation is gone. Such an `Arc` is held by the `ArcSwap`, by a run of
`reload_config`, by most of the tasks themselves, and by whatever else works for the generation,
accepted TCP connections in the first place.

`shutdown_for_reload` leaves two of the guards out, `relative_score` and `score_debug_printer`. The
task of the first holds the generation, so its token is never set after a reload; the token of the
second is set only when nothing holds the generation any more.

## Main definitions

* `spawnAllTasks`, `shutdownForReload`: what is started and what is shut down.
* `Process`, `step`: the generations of a process, and runs of `reload_config` among the starts and
  ends of other work.
* `Process.RetiresAll`: the condition on a step under which a reload leaves nothing behind.

## Main results

* `Process.unset_only_current`: in runs under `RetiresAll` only the current generation has tasks
  whose token is not set.
* `Process.relativeScore_leaks`: the task of `relative_score` survives a reload.
-/

namespace XtpRs.Reload

open Lib Upstream

/-- The `TaskGuard`s of an `AppState`. -/
inductive Guard
  | tcpListeners
  | udpListeners
  | portForwards
  | upstreamScores
  | tcpHandlers
  | healthCheck
  | udpGc
  | scoreDebugPrinter
  | relativeScore
  deriving DecidableEq, Repr

/-- The tasks of the guard hold an `Arc` of the state. Score tasks and the debug printer hold the
upstreams only. -/
def Guard.holdsState : Guard → Bool
  | upstreamScores | scoreDebugPrinter => false
  | _ => true

/-- A task started by `spawn_all_tasks`. -/
structure AuxTask where
  guard : Guard
  running : Bool := true
  deriving DecidableEq, Repr

/-! ### Starting the tasks -/

/-- A socket that is bound while the tasks are started. -/
inductive BindRequest
  | tproxyTcp (ip : IpAddr) (port : UInt16)
  | tproxyUdp (ip : IpAddr) (port : UInt16)
  | portForwardTcp (addr : SocketAddr)
  | portForwardUdp (addr : SocketAddr)
  deriving DecidableEq, Repr

/-- What `spawn_all_tasks` depends on besides the configuration: which sockets can be bound, and
whether the log level is `DEBUG`. -/
structure SpawnEnv where
  bindOk : BindRequest → Bool
  debugEnabled : Bool

/-- The tasks started so far, and whether the function returned `Ok`. -/
abbrev Spawned := List AuxTask × Bool

/-- `AppState::spawn_listener_tasks`. -/
def spawnListenerTasks (config : Config) (env : SpawnEnv) : Spawned :=
  match parseListenAddr config.listen with
  | .error _ => ([], false)
  | .ok (ip, port) =>
    if (listenIps ip).all fun ip => env.bindOk (.tproxyTcp ip port) then
      let tcp := (listenIps ip).map fun _ => { guard := .tcpListeners }
      if !config.udp then (tcp, true)
      else if (listenIps ip).all fun ip => env.bindOk (.tproxyUdp ip port) then
        (tcp ++ (listenIps ip).map fun _ => { guard := .udpListeners }, true)
      else (tcp, false)
    else ([], false)

/-- The first phase of `spawn_port_forward_tasks` for one entry: both addresses parse and the
sockets can be bound. -/
def preparePortForward (env : SpawnEnv) (pf : PortForward) : Bool :=
  match parseSocketAddr pf.bind, parseSocketAddr pf.remote with
  | some bind, some _ =>
    match pf.network with
    | .tcp => env.bindOk (.portForwardTcp bind)
    | .udp => env.bindOk (.portForwardUdp bind)
    | .both => env.bindOk (.portForwardTcp bind) && env.bindOk (.portForwardUdp bind)
  | _, _ => false

/-- The tasks of one port forward. -/
def portForwardTasks (pf : PortForward) : List AuxTask :=
  match pf.network with
  | .tcp | .udp => [{ guard := .portForwards }]
  | .both => [{ guard := .portForwards }, { guard := .portForwards }]

/-- `AppState::spawn_port_forward_tasks`: nothing is started unless every socket is bound. -/
def spawnPortForwardTasks (config : Config) (env : SpawnEnv) : Spawned :=
  if config.portForward.all (preparePortForward env) then
    (config.portForward.flatMap portForwardTasks, true)
  else ([], false)

/-- The tasks that `spawn_all_tasks` starts after the listeners. -/
def spawnPeriodicTasks (config : Config) (env : SpawnEnv) : List AuxTask :=
  (if 0 < config.healthCheckIntervalSecs then [{ guard := .healthCheck }] else []) ++
  (if config.disableUpstreamScore then []
   else
    config.upstream.map (fun _ => { guard := .upstreamScores }) ++
    (if config.enableRelativeScoring then [{ guard := .relativeScore }] else []) ++
    (if 0 < config.upstreamScoreDebugIntervalSecs && env.debugEnabled then
      [{ guard := .scoreDebugPrinter }]
     else [])) ++
  [{ guard := .udpGc }]

/-- `AppState::spawn_all_tasks`. -/
def spawnAllTasks (config : Config) (env : SpawnEnv) : Spawned :=
  match spawnListenerTasks config env with
  | (listeners, false) => (listeners, false)
  | (listeners, true) =>
    match spawnPortForwardTasks config env with
    | (_, false) => (listeners, false)
    | (forwards, true) => (listeners ++ forwards ++ spawnPeriodicTasks config env, true)

/-- The guards that `shutdown_for_reload` shuts down, in order. Between `udp_gc` and
`upstream_scores` stands the shutdown of the UDP runtime, which is no guard. -/
def shutdownForReload : List Guard :=
  [.tcpListeners, .udpListeners, .portForwards, .udpGc, .upstreamScores, .healthCheck]

/-- The guards that `shutdown_for_exit` shuts down, in order. -/
def shutdownForExit : List Guard :=
  shutdownForReload ++ [.tcpHandlers]

/-! ### The process -/

/-- A generation: its configuration, the tasks started for it, the guards shut down, and the number
of other holders of its `Arc`, such as accepted TCP connections. -/
structure Generation where
  config : Config
  tasks : List AuxTask
  shutDown : List Guard
  holders : ℕ

/-- The running tasks of the generation that hold its `Arc`. -/
def Generation.holdingTasks (gen : Generation) : ℕ :=
  gen.tasks.countP fun task => task.running && task.guard.holdsState

/-- `TaskGuard::shutdown` of one guard: the token is set, and the call returns when every task of
the guard has ended or was aborted. -/
def Generation.shutdown (gen : Generation) (guard : Guard) : Generation :=
  { gen with
    tasks := gen.tasks.map fun task =>
      if task.guard = guard then { task with running := false } else task
    shutDown := guard :: gen.shutDown }

/-- A task ends by itself. -/
def Generation.endTask (gen : Generation) (i : ℕ) : Generation :=
  { gen with tasks := gen.tasks.modify i fun task => { task with running := false } }

/-- Where `reload_config` is: not running, or shutting the guards of a generation down, with those
still to come. The generation is the old one after a successful start of the new one, and the new
one after a failed start. -/
inductive Phase
  | idle
  | stopping (g : ℕ) (rest : List Guard)
  deriving DecidableEq, Repr

/-- The generations of a process, the one in the `ArcSwap`, and the run of `reload_config`. -/
structure Process where
  gens : ℕ → Generation
  numGens : ℕ
  current : ℕ
  phase : Phase

/-- What `reload_config` depends on besides the configuration it reads: whether reading and parsing
the file, the log filter and the parts of `AppState::build` that depend on files succeed, and the
environment of the new tasks. -/
structure ReloadEnv where
  buildOk : Bool
  spawn : SpawnEnv

/-- What happens in a process: a run of `reload_config` begins, shuts its next guard down, returns;
an `Arc` of a generation is cloned for other work or that work ends; a task ends by itself. -/
inductive Action
  | reload (config : Config) (env : ReloadEnv)
  | shutdownNext
  | finish
  | hold (g : ℕ)
  | release (g : ℕ)
  | taskEnds (g i : ℕ)

namespace Process

/-- A started process. -/
def init (config : Config) (env : SpawnEnv) : Process where
  gens := Function.update (fun _ => ⟨config, [], [], 0⟩) 0
    ⟨config, (spawnAllTasks config env).1, [], 0⟩
  numGens := 1
  current := 0
  phase := .idle

variable (st : Process)

/-- A change of one generation. -/
def modify (g : ℕ) (f : Generation → Generation) : Process :=
  { st with gens := Function.update st.gens g (f (st.gens g)) }

/-- The strong count of a generation's `Arc`. -/
def strongCount (g : ℕ) : ℕ :=
  (if st.current = g then 1 else 0) +
  (match st.phase with
    | .idle => 0
    | .stopping g' _ => if g' = g then 1 else 0) +
  (st.gens g).holders + (st.gens g).holdingTasks

/-- The cancellation tokens of the guard's tasks are set: the guard was shut down, or dropped with
its generation. -/
def tokenSet (g : ℕ) (guard : Guard) : Bool :=
  decide (guard ∈ (st.gens g).shutDown) || st.strongCount g == 0

/-- A guard of the generation being stopped is shut down; `rest` is still to come. -/
def shutdownGuard (g : ℕ) (guard : Guard) (rest : List Guard) : Process :=
  { st.modify g (Generation.shutdown · guard) with phase := .stopping g rest }

/-- A new generation whose tasks are started. -/
def addGeneration (config : Config) (tasks : List AuxTask) : Process :=
  { st with
    gens := Function.update st.gens st.numGens ⟨config, tasks, [], 0⟩
    numGens := st.numGens + 1 }

/-- The beginning of `reload_config`: a rejected configuration changes nothing; otherwise the new
generation is started and swapped in, or rolled back. -/
def reload (parseIpNet : Str → Option IpNet) (config : Config) (env : ReloadEnv) : Process :=
  match env.buildOk, config.validate parseIpNet, config.buildUpstreamSet with
  | true, .ok _, .ok _ =>
    match spawnAllTasks config env.spawn with
    | (tasks, true) =>
      { st.addGeneration config tasks with
        current := st.numGens
        phase := .stopping st.current shutdownForReload }
    | (tasks, false) =>
      { st.addGeneration config tasks with phase := .stopping st.numGens shutdownForExit }
  | _, _, _ => st

/-- The steps of a process. -/
def step (parseIpNet : Str → Option IpNet) (st : Process) : Action → Option Process
  | .reload config env =>
    if st.phase = .idle then some (st.reload parseIpNet config env) else none
  | .shutdownNext =>
    match st.phase with
    | .stopping g (guard :: rest) => some (st.shutdownGuard g guard rest)
    | _ => none
  | .finish =>
    match st.phase with
    | .stopping _ [] => some { st with phase := .idle }
    | _ => none
  | .hold g =>
    -- an `Arc` is cloned from an existing one
    if st.strongCount g = 0 then none
    else some (st.modify g fun gen => { gen with holders := gen.holders + 1 })
  | .release g =>
    if (st.gens g).holders = 0 then none
    else some (st.modify g fun gen => { gen with holders := gen.holders - 1 })
  | .taskEnds g i => some (st.modify g (Generation.endTask · i))

/-- The condition on a step: when a run of `reload_config` returns, the generation it has shut down
had no task of `relative_score`, and if it had one of `score_debug_printer`, nothing else holds
the generation. -/
def RetiresAll (st : Process) (a : Action) : Prop :=
  ∀ g, a = .finish → st.phase = .stopping g [] →
    (∀ task ∈ (st.gens g).tasks, task.guard ≠ .relativeScore) ∧
    ((∃ task ∈ (st.gens g).tasks, task.guard = .scoreDebugPrinter) → (st.gens g).holders = 0)

/-! ### What is started and what is shut down -/

section Spawn

variable {config : Config} {env : SpawnEnv} {task : AuxTask}

theorem guard_of_mem_spawnListenerTasks (h : task ∈ (spawnListenerTasks config env).1) :
    task.guard = .tcpListeners ∨ task.guard = .udpListeners := by
  have htcp : ∀ ip, task ∈ (listenIps ip).map (fun _ => ({ guard := .tcpListeners } : AuxTask)) →
      task.guard = .tcpListeners := by
    intro ip hmem
    obtain ⟨_, -, rfl⟩ := List.mem_map.mp hmem
    rfl
  unfold spawnListenerTasks at h
  split at h
  · cases h
  · split_ifs at h
    · exact .inl (htcp _ h)
    · rcases List.mem_append.mp h with h | h
      · exact .inl (htcp _ h)
      · obtain ⟨_, -, rfl⟩ := List.mem_map.mp h
        exact .inr rfl
    · exact .inl (htcp _ h)
    · cases h

theorem guard_of_mem_spawnPortForwardTasks (h : task ∈ (spawnPortForwardTasks config env).1) :
    task.guard = .portForwards := by
  unfold spawnPortForwardTasks at h
  split_ifs at h
  · obtain ⟨pf, -, hpf⟩ := List.mem_flatMap.mp h
    unfold portForwardTasks at hpf
    split at hpf <;> simp_all
  · cases h

theorem guard_of_mem_spawnPeriodicTasks (h : task ∈ spawnPeriodicTasks config env) :
    task.guard = .healthCheck ∨ task.guard = .upstreamScores ∨ task.guard = .relativeScore ∨
      task.guard = .scoreDebugPrinter ∨ task.guard = .udpGc := by
  have hif : ∀ (b : Prop) [Decidable b] (guard : Guard),
      task ∈ (if b then [({ guard } : AuxTask)] else []) → task.guard = guard := by
    intro b _ guard hmem
    split_ifs at hmem
    · rw [List.mem_singleton.mp hmem]
    · cases hmem
  rw [spawnPeriodicTasks, List.mem_append, List.mem_append, List.mem_singleton] at h
  rcases h with (h | h) | rfl
  · exact .inl (hif _ _ h)
  · by_cases hdisabled : config.disableUpstreamScore = true
    · rw [if_pos hdisabled] at h
      cases h
    · rw [if_neg hdisabled, List.mem_append, List.mem_append] at h
      rcases h with (h | h) | h
      · obtain ⟨_, -, rfl⟩ := List.mem_map.mp h
        exact .inr (.inl rfl)
      · exact .inr (.inr (.inl (hif _ _ h)))
      · exact .inr (.inr (.inr (.inl (hif _ _ h))))
  · simp

/-- `spawn_all_tasks` starts no task of `tcp_handlers`: these come from the accept loops. -/
theorem guard_ne_tcpHandlers (h : task ∈ (spawnAllTasks config env).1) :
    task.guard ≠ .tcpHandlers := by
  have hlisteners : task ∈ (spawnListenerTasks config env).1 → task.guard ≠ .tcpHandlers := by
    intro hmem
    rcases guard_of_mem_spawnListenerTasks hmem with hguard | hguard <;> simp [hguard]
  unfold spawnAllTasks at h
  cases hl : spawnListenerTasks config env with
  | mk listeners ok =>
    cases hf : spawnPortForwardTasks config env with
    | mk forwards ok' =>
      rw [hl] at h hlisteners
      cases ok with
      | false => exact hlisteners h
      | true =>
        rw [hf] at h
        cases ok' with
        | false => exact hlisteners h
        | true =>
          rcases List.mem_append.mp h with h | h
          · rcases List.mem_append.mp h with h | h
            · exact hlisteners h
            · rw [guard_of_mem_spawnPortForwardTasks (by rw [hf]; exact h)]
              simp
          · rcases guard_of_mem_spawnPeriodicTasks h with hg | hg | hg | hg | hg <;> simp [hg]

end Spawn

variable {st st' : Process} {g : ℕ}

theorem holdingTasks_eq_zero_iff {gen : Generation} :
    gen.holdingTasks = 0 ↔
      ∀ task ∈ gen.tasks, task.running = true → task.guard.holdsState = false := by
  simp [Generation.holdingTasks, List.countP_eq_zero]

/-- No `Arc` of the generation is left. -/
theorem strongCount_eq_zero_iff :
    st.strongCount g = 0 ↔ st.current ≠ g ∧ (∀ rest, st.phase ≠ .stopping g rest) ∧
      (st.gens g).holders = 0 ∧
      ∀ task ∈ (st.gens g).tasks, task.running = true → task.guard.holdsState = false := by
  rw [← holdingTasks_eq_zero_iff]
  unfold strongCount
  cases hphase : st.phase with
  | idle => by_cases hcurrent : st.current = g <;> simp [hcurrent]
  | stopping g' rest =>
    by_cases hcurrent : st.current = g
    · simp [hcurrent]
    · by_cases hg : g' = g <;> simp [hcurrent, hg]

theorem tokenSet_eq_true_iff {guard : Guard} :
    st.tokenSet g guard = true ↔ guard ∈ (st.gens g).shutDown ∨ st.strongCount g = 0 := by
  simp [tokenSet]

/-! ### Generations retire -/

/-- The invariant of a process. Only the current generation and the one being shut down may have
tasks whose token is not set. -/
structure Inv (st : Process) : Prop where
  current_lt : st.current < st.numGens
  fresh : ∀ g, st.numGens ≤ g → (st.gens g).tasks = []
  stopping : ∀ g rest, st.phase = .stopping g rest → g ≠ st.current ∧ g < st.numGens ∧
    ∀ guard ∈ shutdownForReload, guard ∈ (st.gens g).shutDown ∨ guard ∈ rest
  no_handler : ∀ g, ∀ task ∈ (st.gens g).tasks, task.guard ≠ .tcpHandlers
  stopped : ∀ g, ∀ task ∈ (st.gens g).tasks, task.guard ∈ (st.gens g).shutDown →
    task.running = false
  retired : ∀ g, g ≠ st.current → (∀ rest, st.phase ≠ .stopping g rest) →
    ∀ task ∈ (st.gens g).tasks, st.tokenSet g task.guard = true

/-- The tasks after a change come from tasks of the same guard, and none is started. -/
def KeepsTasks (gen gen' : Generation) : Prop :=
  ∀ task' ∈ gen'.tasks, ∃ task ∈ gen.tasks, task.guard = task'.guard ∧
    (task'.running = true → task.running = true)

theorem KeepsTasks.refl (gen : Generation) : KeepsTasks gen gen :=
  fun task htask => ⟨task, htask, rfl, id⟩

theorem gens_modify (f : Generation → Generation) (g' : ℕ) :
    (st.modify g f).gens g' = if g' = g then f (st.gens g) else st.gens g' := by
  by_cases hg : g' = g
  · subst hg
    simp [modify]
  · simp [modify, hg]

/-- The last `Arc` stays gone when no task is started and nothing new holds the generation. -/
theorem strongCount_modify {f : Generation → Generation} {g' : ℕ}
    (htasks : KeepsTasks (st.gens g) (f (st.gens g)))
    (hholders : st.strongCount g = 0 → (f (st.gens g)).holders = 0)
    (h : st.strongCount g' = 0) : (st.modify g f).strongCount g' = 0 := by
  obtain ⟨hcurrent, hphase, hheld, hrunning⟩ := strongCount_eq_zero_iff.mp h
  rw [strongCount_eq_zero_iff]
  refine ⟨hcurrent, hphase, ?_⟩
  rw [gens_modify]
  by_cases hg : g' = g
  · subst hg
    rw [if_pos rfl]
    refine ⟨hholders h, fun task' htask' hrun => ?_⟩
    obtain ⟨task, htask, hguard, hrun'⟩ := htasks task' htask'
    rw [← hguard]
    exact hrunning task htask (hrun' hrun)
  · rw [if_neg hg]
    exact ⟨hheld, hrunning⟩

/-- The tokens of a retired generation that a step does not change stay set. -/
theorem tokenSet_of_gens_eq {guard : Guard} (hgen : st'.gens g = st.gens g)
    (hcurrent : st'.current ≠ g) (hphase : ∀ rest, st'.phase ≠ .stopping g rest)
    (h : st.tokenSet g guard = true) : st'.tokenSet g guard = true := by
  rw [tokenSet_eq_true_iff] at h ⊢
  rw [hgen]
  refine h.imp_right fun hzero => ?_
  obtain ⟨-, -, hheld, hrunning⟩ := strongCount_eq_zero_iff.mp hzero
  exact strongCount_eq_zero_iff.mpr ⟨hcurrent, hphase, by rw [hgen]; exact ⟨hheld, hrunning⟩⟩

namespace Inv

/-- A change of a generation that shuts no guard down. -/
theorem modify (h : Inv st) {f : Generation → Generation}
    (htasks : KeepsTasks (st.gens g) (f (st.gens g)))
    (hshutDown : (f (st.gens g)).shutDown = (st.gens g).shutDown)
    (hholders : st.strongCount g = 0 → (f (st.gens g)).holders = 0) : Inv (st.modify g f) := by
  have hshut : ∀ g', ((st.modify g f).gens g').shutDown = (st.gens g').shutDown := by
    intro g'
    rw [gens_modify]
    by_cases hg : g' = g
    · rw [if_pos hg, hshutDown, hg]
    · rw [if_neg hg]
  have hkeeps : ∀ g', KeepsTasks (st.gens g') ((st.modify g f).gens g') := by
    intro g'
    rw [gens_modify]
    by_cases hg : g' = g
    · rw [if_pos hg, hg]
      exact htasks
    · rw [if_neg hg]
      exact .refl _
  refine ⟨h.current_lt, fun g' hg' => ?_, fun g' rest hphase => ?_, fun g' task' htask' => ?_,
    fun g' task' htask' hguard => ?_, fun g' hcurrent hphase task' htask' => ?_⟩
  · rw [List.eq_nil_iff_forall_not_mem]
    intro task' htask'
    obtain ⟨task, htask, -⟩ := hkeeps g' task' htask'
    rw [h.fresh g' hg'] at htask
    cases htask
  · rw [hshut]
    exact h.stopping g' rest hphase
  · obtain ⟨task, htask, hguard, -⟩ := hkeeps g' task' htask'
    rw [← hguard]
    exact h.no_handler g' task htask
  · obtain ⟨task, htask, hguard', hrun⟩ := hkeeps g' task' htask'
    rw [hshut, ← hguard'] at hguard
    have hstopped := h.stopped g' task htask hguard
    by_contra hrunning
    rw [hrun (by simpa using hrunning)] at hstopped
    cases hstopped
  · obtain ⟨task, htask, hguard, -⟩ := hkeeps g' task' htask'
    have hset := tokenSet_eq_true_iff.mp (h.retired g' hcurrent hphase task htask)
    rw [tokenSet_eq_true_iff, hshut, ← hguard]
    exact hset.imp_right (strongCount_modify htasks hholders)

/-- The next guard is shut down. -/
theorem shutdownNext (h : Inv st) {guard : Guard} {rest : List Guard}
    (hphase : st.phase = .stopping g (guard :: rest)) :
    Inv (st.shutdownGuard g guard rest) := by
  obtain ⟨hne, hlt, hcovered⟩ := h.stopping g _ hphase
  have hsame : ∀ g', g' ≠ g → (st.shutdownGuard g guard rest).gens g' = st.gens g' :=
    fun g' hg' => Function.update_of_ne hg' _ _
  have hgen : (st.shutdownGuard g guard rest).gens g = (st.gens g).shutdown guard :=
    Function.update_self _ _ _
  have htask : ∀ task' ∈ ((st.gens g).shutdown guard).tasks, ∃ task ∈ (st.gens g).tasks,
      task' = if task.guard = guard then { task with running := false } else task := by
    intro task' htask'
    obtain ⟨task, htask, heq⟩ := List.mem_map.mp htask'
    exact ⟨task, htask, heq.symm⟩
  refine ⟨h.current_lt, fun g' hg' => ?_, fun g' rest' hphase' => ?_, fun g' task' htask' => ?_,
    fun g' task' htask' hguard => ?_, fun g' hcurrent hphase' task' htask' => ?_⟩
  · rw [hsame g' (hlt.trans_le hg').ne']
    exact h.fresh g' hg'
  · cases hphase'
    refine ⟨hne, hlt, fun x hx => ?_⟩
    rw [hgen]
    rcases hcovered x hx with hx | hx
    · exact .inl (List.mem_cons_of_mem _ hx)
    · rcases List.mem_cons.mp hx with rfl | hx
      · exact .inl List.mem_cons_self
      · exact .inr hx
  · by_cases hg : g' = g
    · subst hg
      rw [hgen] at htask'
      obtain ⟨task, htask, rfl⟩ := htask task' htask'
      split_ifs <;> exact h.no_handler g' task htask
    · rw [hsame g' hg] at htask'
      exact h.no_handler g' task' htask'
  · by_cases hg : g' = g
    · subst hg
      rw [hgen] at htask' hguard
      obtain ⟨task, htask, rfl⟩ := htask task' htask'
      split_ifs at hguard ⊢ with hsplit
      · rfl
      · rcases List.mem_cons.mp hguard with heq | hmem
        · exact absurd heq hsplit
        · exact h.stopped g' task htask hmem
    · rw [hsame g' hg] at htask' hguard
      exact h.stopped g' task' htask' hguard
  · have hg : g' ≠ g := by
      rintro rfl
      exact hphase' rest rfl
    rw [hsame g' hg] at htask'
    refine tokenSet_of_gens_eq (hsame g' hg) (Ne.symm hcurrent) hphase' ?_
    refine h.retired g' hcurrent (fun rest' hrest' => ?_) task' htask'
    rw [hphase] at hrest'
    cases hrest'
    exact hg rfl

/-- A run of `reload_config` returns. The token of a task of the generation it has shut down is
set: its guard was shut down, or it is `score_debug_printer` and the generation is gone. -/
theorem finish (h : Inv st) (hphase : st.phase = .stopping g [])
    (hretires : RetiresAll st .finish) : Inv { st with phase := .idle } := by
  obtain ⟨hne, hlt, hcovered⟩ := h.stopping g _ hphase
  obtain ⟨hrelative, hprinter⟩ := hretires g rfl hphase
  have hshut : ∀ task ∈ (st.gens g).tasks,
      task.guard ∈ (st.gens g).shutDown ∨ task.guard = .scoreDebugPrinter := by
    intro task htask
    have hlist : task.guard ∈ shutdownForReload → task.guard ∈ (st.gens g).shutDown := by
      intro hmem
      simpa using hcovered _ hmem
    cases hguard : task.guard with
    | scoreDebugPrinter => exact .inr rfl
    | relativeScore => exact absurd hguard (hrelative task htask)
    | tcpHandlers => exact absurd hguard (h.no_handler g task htask)
    | tcpListeners | udpListeners | portForwards | udpGc | upstreamScores | healthCheck =>
      rw [hguard] at hlist
      exact .inl (hlist (by decide))
  refine ⟨h.current_lt, h.fresh, fun g' rest hrest => (by cases hrest), h.no_handler,
    h.stopped, fun g' hcurrent _ task htask => ?_⟩
  by_cases hg : g' = g
  · subst hg
    rw [tokenSet_eq_true_iff]
    rcases hshut task htask with hmem | hguard
    · exact .inl hmem
    · right
      refine strongCount_eq_zero_iff.mpr
        ⟨Ne.symm hne, by simp, hprinter ⟨task, htask, hguard⟩, fun task' htask' hrun => ?_⟩
      rcases hshut task' htask' with hmem | hguard'
      · rw [h.stopped g' task' htask' hmem] at hrun
        cases hrun
      · rw [hguard']
        rfl
  · have hset : st.tokenSet g' task.guard = true := by
      refine h.retired g' hcurrent (fun rest hrest => ?_) task htask
      rw [hphase] at hrest
      cases hrest
      exact hg rfl
    refine tokenSet_of_gens_eq ?_ (Ne.symm hcurrent) (by simp) hset
    rfl

/-- A new generation is added while no run of `reload_config` is going on; it or the generation it
replaces is shut down next. -/
theorem addGeneration (h : Inv st) {config : Config} {env : SpawnEnv} {current stopped : ℕ}
    {rest : List Guard} (hidle : st.phase = .idle)
    (hcase : current = st.numGens ∧ stopped = st.current ∨
      current = st.current ∧ stopped = st.numGens)
    (hrest : ∀ guard ∈ shutdownForReload, guard ∈ rest) :
    Inv { st.addGeneration config (spawnAllTasks config env).1 with
      current
      phase := .stopping stopped rest } := by
  have hlt := h.current_lt
  have hold : ∀ g, g ≠ st.numGens →
      (st.addGeneration config (spawnAllTasks config env).1).gens g = st.gens g :=
    fun g hg => Function.update_of_ne hg _ _
  have hnew : (st.addGeneration config (spawnAllTasks config env).1).gens st.numGens =
      ⟨config, (spawnAllTasks config env).1, [], 0⟩ := Function.update_self _ _ _
  refine ⟨?_, fun g hg => ?_, fun g rest' hphase => ?_, fun g task htask => ?_,
    fun g task htask hguard => ?_, fun g hcurrent hphase task htask => ?_⟩
  · change current < st.numGens + 1
    omega
  · change ((st.addGeneration config _).gens g).tasks = []
    replace hg : st.numGens + 1 ≤ g := hg
    rw [hold g (by omega)]
    exact h.fresh g (by omega)
  · cases hphase
    refine ⟨?_, ?_, fun guard hguard => .inr (hrest guard hguard)⟩
    · change stopped ≠ current
      omega
    · change stopped < st.numGens + 1
      omega
  · change task ∈ ((st.addGeneration config _).gens g).tasks at htask
    by_cases hg : g = st.numGens
    · rw [hg, hnew] at htask
      exact guard_ne_tcpHandlers htask
    · rw [hold g hg] at htask
      exact h.no_handler g task htask
  · change task ∈ ((st.addGeneration config _).gens g).tasks at htask
    change task.guard ∈ ((st.addGeneration config _).gens g).shutDown at hguard
    by_cases hg : g = st.numGens
    · rw [hg, hnew] at hguard
      cases hguard
    · rw [hold g hg] at htask hguard
      exact h.stopped g task htask hguard
  · have hstopped : g ≠ stopped := by
      rintro rfl
      exact hphase rest rfl
    replace hcurrent : g ≠ current := hcurrent
    have hg : g ≠ st.numGens := by omega
    change task ∈ ((st.addGeneration config _).gens g).tasks at htask
    rw [hold g hg] at htask
    refine tokenSet_of_gens_eq (hold g hg) (Ne.symm hcurrent) hphase ?_
    exact h.retired g (by omega) (by simp [hidle]) task htask

/-- The beginning of a run of `reload_config`. -/
theorem reload (h : Inv st) {parseIpNet : Str → Option IpNet} {config : Config} {env : ReloadEnv}
    (hidle : st.phase = .idle) : Inv (st.reload parseIpNet config env) := by
  unfold Process.reload
  split
  · cases hspawn : spawnAllTasks config env.spawn with
    | mk tasks ok =>
      have htasks : tasks = (spawnAllTasks config env.spawn).1 := by rw [hspawn]
      subst htasks
      cases ok with
      | true => exact h.addGeneration hidle (.inl ⟨rfl, rfl⟩) fun guard hguard => hguard
      | false =>
        exact h.addGeneration hidle (.inr ⟨rfl, rfl⟩)
          fun guard hguard => List.mem_append_left _ hguard
  · exact h

theorem endTask (h : Inv st) (i : ℕ) : Inv (st.modify g (Generation.endTask · i)) := by
  refine h.modify ?_ rfl fun hzero => (strongCount_eq_zero_iff.mp hzero).2.2.1
  intro task' htask'
  obtain ⟨j, hj⟩ := List.mem_iff_getElem?.mp htask'
  rw [Generation.endTask, List.getElem?_modify] at hj
  obtain ⟨task, htask, heq⟩ := Option.map_eq_some_iff.mp hj
  refine ⟨task, List.mem_of_getElem? htask, ?_⟩
  subst heq
  split_ifs <;> simp

/-- **Generations retire.** Every step under `RetiresAll` keeps `Inv`. -/
theorem step (h : Inv st) {parseIpNet : Str → Option IpNet} {a : Action} (ha : RetiresAll st a)
    (hs : st.step parseIpNet a = some st') : Inv st' := by
  cases a with
  | reload config env =>
    simp only [Process.step, Option.ite_none_right_eq_some, Option.some.injEq] at hs
    obtain ⟨hidle, rfl⟩ := hs
    exact h.reload hidle
  | shutdownNext =>
    cases hphase : st.phase with
    | idle => simp [Process.step, hphase] at hs
    | stopping g rest =>
      cases rest with
      | nil => simp [Process.step, hphase] at hs
      | cons guard rest =>
        simp only [Process.step, hphase, Option.some.injEq] at hs
        exact hs ▸ h.shutdownNext hphase
  | finish =>
    cases hphase : st.phase with
    | idle => simp [Process.step, hphase] at hs
    | stopping g rest =>
      cases rest with
      | nil =>
        simp only [Process.step, hphase, Option.some.injEq] at hs
        exact hs ▸ h.finish hphase ha
      | cons guard rest => simp [Process.step, hphase] at hs
  | hold g =>
    simp only [Process.step, Option.ite_none_left_eq_some, Option.some.injEq] at hs
    obtain ⟨hcount, rfl⟩ := hs
    exact h.modify (KeepsTasks.refl _) rfl fun hzero => absurd hzero hcount
  | release g =>
    simp only [Process.step, Option.ite_none_left_eq_some, Option.some.injEq] at hs
    obtain ⟨-, rfl⟩ := hs
    refine h.modify (KeepsTasks.refl _) rfl fun hzero => ?_
    have hheld := (strongCount_eq_zero_iff.mp hzero).2.2.1
    dsimp only
    omega
  | taskEnds g i =>
    simp only [Process.step, Option.some.injEq] at hs
    exact hs ▸ h.endTask i

end Inv

theorem inv_init (config : Config) (env : SpawnEnv) : Inv (init config env) := by
  have hother : ∀ g, g ≠ 0 → ((init config env).gens g).tasks = [] := by
    intro g hg
    simp [init, hg]
  refine ⟨Nat.one_pos, fun g hg => ?_, fun g rest hphase => (by cases hphase),
    fun g task htask => ?_,
    fun g task htask hguard => ?_, fun g hcurrent _ task htask => ?_⟩
  · exact hother g (Nat.one_le_iff_ne_zero.mp hg)
  · by_cases hg : g = 0
    · subst hg
      exact guard_ne_tcpHandlers htask
    · rw [hother g hg] at htask
      cases htask
  · by_cases hg : g = 0
    · subst hg
      cases hguard
    · rw [hother g hg] at htask
      cases htask
  · rw [hother g hcurrent] at htask
    cases htask

/-- **Reload retires every background task.** Take a run in which no reload retires a generation
with a task of `relative_score`, nor one with a task of `score_debug_printer` that something else
still holds. Whenever no reload is going on, every task whose cancellation token is not set belongs
to the current generation. -/
theorem unset_only_current {parseIpNet : Str → Option IpNet} {config : Config} {env : SpawnEnv}
    (h : Steps (step parseIpNet) RetiresAll (init config env) st) (hidle : st.phase = .idle) :
    ∀ g, ∀ task ∈ (st.gens g).tasks, st.tokenSet g task.guard = false → g = st.current := by
  have hinv : Inv st := h.invariant (inv_init config env) fun _ _ _ hst ha hs => hst.step ha hs
  intro g task htask hunset
  by_contra hne
  have hset := hinv.retired g hne (by simp [hidle]) task htask
  rw [hunset] at hset
  cases hset

/-- `RetiresAll` as a check. -/
def retiresAll (st : Process) : Action → Bool
  | .finish =>
    match st.phase with
    | .stopping g [] =>
      ((st.gens g).tasks.all fun task => task.guard != .relativeScore) &&
        (!((st.gens g).tasks.any fun task => task.guard == .scoreDebugPrinter) ||
          (st.gens g).holders == 0)
    | _ => true
  | _ => true

theorem retiresAll_of_check (st : Process) (a : Action) (h : retiresAll st a = true) :
    RetiresAll st a := by
  rintro g rfl hphase
  simp only [retiresAll, hphase, Bool.and_eq_true, List.all_eq_true, bne_iff_ne, Bool.or_eq_true,
    Bool.not_eq_true', List.any_eq_false, beq_iff_eq] at h
  refine ⟨h.1, ?_⟩
  rintro ⟨task, htask, hguard⟩
  exact h.2.resolve_left fun hnone => hnone task htask hguard

/-- One upstream, whose scores are printed for debugging. -/
def printerConfig : Config where
  upstream := [{ id := [0x61], addr := .v4 ⟨127, 0, 0, 1⟩ 1080 }]
  upstreamScoreDebugIntervalSecs := 5

/-- The same with relative scoring. -/
def relativeConfig : Config :=
  { printerConfig with enableRelativeScoring := true }

/-- Every socket can be bound. -/
def allBound : SpawnEnv where
  bindOk _ := true
  debugEnabled := true

/-- A complete run of `reload_config` with a new generation that starts. -/
def reloadRun (config : Config) : List Action :=
  [.reload config ⟨true, allBound⟩, .shutdownNext, .shutdownNext, .shutdownNext, .shutdownNext,
    .shutdownNext, .shutdownNext]

theorem unset_only_current_printerConfig :
    ∃ st, Steps (step fun _ => none) RetiresAll (init printerConfig allBound) st ∧
      st.current = 1 ∧ ({ guard := .scoreDebugPrinter } : AuxTask) ∈ (st.gens 0).tasks ∧
      st.tokenSet 0 .scoreDebugPrinter = true := by
  obtain ⟨st, hst, hphase, hcurrent, htask⟩ :
      ∃ st, Steps (step fun _ => none) RetiresAll (init printerConfig allBound) st ∧
        (st.phase = .idle ∧ st.current = 1 ∧
          ({ guard := .scoreDebugPrinter } : AuxTask) ∈ (st.gens 0).tasks) :=
    exists_steps_of_guarded_run
      (l := [.hold 0] ++ reloadRun printerConfig ++ [.release 0, .finish])
      retiresAll_of_check (by decide +kernel)
  refine ⟨st, hst, hcurrent, htask, ?_⟩
  by_contra hunset
  have hzero := unset_only_current hst hphase 0 _ htask (by simpa using hunset)
  omega

/-- With relative scoring, the task of `relative_score` of the old generation is still running
after a reload, and its token is not set. -/
theorem relativeScore_leaks :
    ∃ st, Reachable (step fun _ => none) (init relativeConfig allBound) st ∧ st.phase = .idle ∧
      ∃ g, ∃ task ∈ (st.gens g).tasks, task.running = true ∧ st.tokenSet g task.guard = false ∧
        g ≠ st.current := by
  obtain ⟨st, hst, hphase, hcurrent, htask, hunset⟩ :
      ∃ st, Reachable (step fun _ => none) (init relativeConfig allBound) st ∧
        (st.phase = .idle ∧ st.current = 1 ∧
          ({ guard := .relativeScore } : AuxTask) ∈ (st.gens 0).tasks ∧
          st.tokenSet 0 .relativeScore = false) :=
    exists_steps_of_run (l := reloadRun relativeConfig ++ [.finish]) (fun _ _ _ => trivial)
      (by decide +kernel)
  exact ⟨st, hst, hphase, 0, _, htask, rfl, hunset, by omega⟩

end Process

end XtpRs.Reload
