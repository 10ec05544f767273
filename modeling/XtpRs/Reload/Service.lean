import XtpRs.Reload.Generations
import XtpRs.Routing.Direct

/-!
# Service across signals

A running process takes two signals. On `SIGHUP` it reloads its configuration, which can fail while
the file is read, while the new generation is built and while its tasks are started. On `SIGUSR1` it
rotates the proxy mode. Each signal has a task of its own, so a generation can be swapped out
between the moment at which the handler of `SIGUSR1` has loaded it and the moment at which it stores
the new mode. A `SIGUSR1` that is sent waits until the handler takes it, and the system and the
runtime may merge signals that wait: two that are sent in short order may rotate the mode once. The
end of the process, on `SIGINT`, is not part of a run here.

The generation that serves must not suffer from either. All its tasks have been started, for a
configuration that has been validated, none of them is told to stop, and its proxy mode is the
configured one, rotated once for each receipt of a signal that found this generation in the
`ArcSwap`.

## Main definitions

* `Daemon`, `Daemon.step`: the process with the handlers of both signals.
* `Process.InService`: what is kept of the current generation.
* `Daemon.Rotated`: what the handler of `SIGUSR1` keeps.

## Main results

* `Process.InService.step`, `Daemon.Rotated.step`: every step keeps them.
* `Daemon.current_in_service`: in every run the current generation serves undisturbed, and every
  receipt of a `SIGUSR1` rotates one mode once; no signal is without a receipt.
-/

namespace XtpRs.Routing.ProxyMode

/-- `ProxyMode::next`. -/
def next : ProxyMode → ProxyMode
  | smart => global
  | global => bypass
  | bypass => smart

/-- `ProxyMode::as_u8`. -/
def asU8 : ProxyMode → UInt8
  | smart => 0
  | global => 1
  | bypass => 2

@[simp] theorem ofUInt8_asU8 (mode : ProxyMode) : ofUInt8 mode.asU8 = mode := by
  cases mode <;> rfl

end XtpRs.Routing.ProxyMode

namespace XtpRs.Reload

open Lib Routing Upstream

/-! ### The handlers of the signals -/

/-- Where the handler of `SIGUSR1` is: waiting for a signal, with one received, with a generation
loaded, or with its mode read. The guard of `ArcSwap::load` is among the holders of the
generation. -/
inductive Usr1
  | waiting
  | received
  | loaded (g : ℕ)
  | read (g : ℕ) (old : ProxyMode)

/-- The generation that the handler is about to rotate. -/
def Usr1.pending : Usr1 → List ℕ
  | .waiting | .received => []
  | .loaded g | .read g _ => [g]

/-- The signals that have been received and not yet found a generation. -/
def Usr1.unloaded : Usr1 → ℕ
  | .received => 1
  | _ => 0

/-- A process with the handler of `SIGUSR1`; `signals` is the number of signals that wait.
`configured`, `merged`, `found` and `rotated` are a record of the run: the modes that the
generations started with, the number of signals that were merged with another one, the generation
that each received signal has found, and those whose mode has been stored. -/
structure Daemon where
  process : Process
  proxyMode : ℕ → UInt8
  signals : ℕ
  usr1 : Usr1
  configured : ℕ → ProxyMode
  merged : ℕ
  found : List ℕ
  rotated : List ℕ

/-- What happens: `SIGHUP` with the configuration that is read then, a step of the process, a
`SIGUSR1` that is sent, the merger of two that wait, or one of the four steps of its handler. -/
inductive DaemonAction
  | sighup (config : Config) (proxyMode : ProxyMode) (env : ReloadEnv)
  | process (a : Action)
  | sendUsr1
  | mergeUsr1
  | recvUsr1
  | loadState
  | readMode
  | storeMode

/-- The step of the process in an action. -/
def DaemonAction.process? : DaemonAction → Option Action
  | .sighup config _ env => some (.reload config env)
  | .process a => some a
  | _ => none

/-- A `SIGUSR1` is sent. -/
def DaemonAction.isSend : DaemonAction → Bool
  | .sendUsr1 => true
  | _ => false

/-- A `SIGUSR1` is received. -/
def DaemonAction.isReceipt : DaemonAction → Bool
  | .recvUsr1 => true
  | _ => false

namespace Daemon

/-- A started process. -/
def init (config : Config) (proxyMode : ProxyMode) (env : SpawnEnv) : Daemon where
  process := .init config env
  proxyMode _ := proxyMode.asU8
  signals := 0
  usr1 := .waiting
  configured _ := proxyMode
  merged := 0
  found := []
  rotated := []

/-- One step. A new generation starts with the configured mode. -/
def step (parseIpNet : Str → Option IpNet) (st : Daemon) : DaemonAction → Option Daemon
  | .sighup config proxyMode env =>
    (st.process.step parseIpNet (.reload config env)).map fun process =>
      { st with
        process
        proxyMode := Function.update st.proxyMode st.process.numGens proxyMode.asU8
        configured := Function.update st.configured st.process.numGens proxyMode }
  | .process (.reload _ _) => none
  | .process a => (st.process.step parseIpNet a).map fun process => { st with process }
  | .sendUsr1 => some { st with signals := st.signals + 1 }
  | .mergeUsr1 =>
    if 2 ≤ st.signals then some { st with signals := st.signals - 1, merged := st.merged + 1 }
    else none
  | .recvUsr1 =>
    match st.usr1 with
    | .waiting =>
      if 0 < st.signals then some { st with signals := st.signals - 1, usr1 := .received } else none
    | _ => none
  | .loadState =>
    match st.usr1 with
    | .received =>
      some { st with
        usr1 := .loaded st.process.current
        found := st.found ++ [st.process.current] }
    | _ => none
  | .readMode =>
    match st.usr1 with
    | .loaded g => some { st with usr1 := .read g (.ofUInt8 (st.proxyMode g)) }
    | _ => none
  | .storeMode =>
    match st.usr1 with
    | .read g old =>
      some { st with
        proxyMode := Function.update st.proxyMode g old.next.asU8
        usr1 := .waiting
        rotated := st.rotated ++ [g] }
    | _ => none

end Daemon

/-! ### The current generation -/

section Spawn

variable {config : Config} {env : SpawnEnv} {task : AuxTask}

/-- A task runs when it is started. -/
theorem running_of_mem_spawnAllTasks (h : task ∈ (spawnAllTasks config env).1) :
    task.running = true := by
  have hmap {α : Type} (l : List α) (guard : Guard)
      (hmem : task ∈ l.map fun _ => ({ guard } : AuxTask)) : task.running = true := by
    obtain ⟨_, -, rfl⟩ := List.mem_map.mp hmem
    rfl
  have hif (b : Prop) [Decidable b] (guard : Guard)
      (hmem : task ∈ if b then [({ guard } : AuxTask)] else []) : task.running = true := by
    split_ifs at hmem
    · rw [List.mem_singleton.mp hmem]
    · cases hmem
  have hlisteners (hmem : task ∈ (spawnListenerTasks config env).1) : task.running = true := by
    unfold spawnListenerTasks at hmem
    split at hmem
    · cases hmem
    · split_ifs at hmem
      · exact hmap _ _ hmem
      · exact (List.mem_append.mp hmem).elim (hmap _ _) (hmap _ _)
      · exact hmap _ _ hmem
      · cases hmem
  have hforwards (hmem : task ∈ (spawnPortForwardTasks config env).1) : task.running = true := by
    unfold spawnPortForwardTasks at hmem
    split_ifs at hmem
    · obtain ⟨pf, -, hpf⟩ := List.mem_flatMap.mp hmem
      unfold portForwardTasks at hpf
      split at hpf <;> simp_all
    · cases hmem
  have hperiodic (hmem : task ∈ spawnPeriodicTasks config env) : task.running = true := by
    rw [spawnPeriodicTasks, List.mem_append, List.mem_append, List.mem_singleton] at hmem
    obtain (hmem | hmem) | rfl := hmem
    · exact hif _ _ hmem
    · by_cases hdisabled : config.disableUpstreamScore = true
      · rw [if_pos hdisabled] at hmem
        cases hmem
      · rw [if_neg hdisabled, List.mem_append, List.mem_append] at hmem
        obtain (hmem | hmem) | hmem := hmem
        · exact hmap _ _ hmem
        · exact hif _ _ hmem
        · exact hif _ _ hmem
    · rfl
  unfold spawnAllTasks at h
  split at h
  · rename_i listeners heq
    exact hlisteners (by rw [heq]; exact h)
  · rename_i listeners heq
    split at h
    · exact hlisteners (by rw [heq]; exact h)
    · rename_i forwards heq'
      rw [List.mem_append, List.mem_append] at h
      obtain (h | h) | h := h
      · exact hlisteners (by rw [heq]; exact h)
      · exact hforwards (by rw [heq']; exact h)
      · exact hperiodic h

end Spawn

namespace Process

variable {parseIpNet : Str → Option IpNet} {st st' : Process} {acts : List Action} {a : Action}

/-- The current generation is in service after the steps `acts`: its configuration is valid, all its
tasks have been started, no guard of it has been or is being shut down, and a task that does not run
has ended by itself. -/
structure InService (parseIpNet : Str → Option IpNet) (acts : List Action) (st : Process) :
    Prop where
  current_lt : st.current < st.numGens
  stopping : ∀ g rest, st.phase = .stopping g rest → g ≠ st.current
  unshut : (st.gens st.current).shutDown = []
  valid : (st.gens st.current).config.validate parseIpNet = .ok ()
  started : ∃ env tasks, spawnAllTasks (st.gens st.current).config env = (tasks, true) ∧
    (st.gens st.current).tasks.map AuxTask.guard = tasks.map AuxTask.guard
  ended : ∀ (i : ℕ) (task : AuxTask), (st.gens st.current).tasks[i]? = some task →
    task.running = false → .taskEnds st.current i ∈ acts

namespace InService

theorem init {config : Config} {env : SpawnEnv} (hvalid : config.validate parseIpNet = .ok ())
    (hstarted : (spawnAllTasks config env).2 = true) :
    InService parseIpNet [] (Process.init config env) where
  current_lt := Nat.one_pos
  stopping g rest h := by cases h
  unshut := rfl
  valid := hvalid
  started := ⟨env, (spawnAllTasks config env).1, Prod.ext rfl hstarted, rfl⟩
  ended i task hi hnot := by
    have hrun := running_of_mem_spawnAllTasks (List.mem_of_getElem? hi)
    rw [hnot] at hrun
    cases hrun

/-- The token of none of its tasks is set. -/
theorem tokenSet_eq_false (h : InService parseIpNet acts st) (guard : Guard) :
    st.tokenSet st.current guard = false := by
  rw [Bool.eq_false_iff, ne_eq, tokenSet_eq_true_iff, strongCount_eq_zero_iff, h.unshut]
  rintro (hmem | ⟨hcurrent, -⟩)
  · cases hmem
  · exact hcurrent rfl

/-- A step that leaves the tasks of the current generation alone. -/
theorem of_same (h : InService parseIpNet acts st) (hcurrent : st'.current = st.current)
    (hlt : st.numGens ≤ st'.numGens)
    (hstopping : ∀ g rest, st'.phase = .stopping g rest → g ≠ st.current)
    (hconfig : (st'.gens st.current).config = (st.gens st.current).config)
    (hshut : (st'.gens st.current).shutDown = (st.gens st.current).shutDown)
    (htasks : (st'.gens st.current).tasks = (st.gens st.current).tasks) :
    InService parseIpNet (acts ++ [a]) st' where
  current_lt := hcurrent ▸ h.current_lt.trans_le hlt
  stopping := hcurrent ▸ hstopping
  unshut := by rw [hcurrent, hshut, h.unshut]
  valid := by rw [hcurrent, hconfig, h.valid]
  started := by
    rw [hcurrent, hconfig, htasks]
    exact h.started
  ended i task hi hnot := by
    rw [hcurrent, htasks] at hi
    rw [hcurrent]
    exact List.mem_append_left _ (h.ended i task hi hnot)

/-- A change of a generation that is not the current one. -/
theorem of_other (h : InService parseIpNet acts st) {g : ℕ} {gen : Generation}
    (hg : g ≠ st.current) (hgens : st'.gens = Function.update st.gens g gen)
    (hcurrent : st'.current = st.current) (hlt : st.numGens ≤ st'.numGens)
    (hstopping : ∀ g' rest, st'.phase = .stopping g' rest → g' ≠ st.current) :
    InService parseIpNet (acts ++ [a]) st' := by
  have hsame : st'.gens st.current = st.gens st.current := by
    rw [hgens, Function.update_of_ne hg.symm]
  exact h.of_same hcurrent hlt hstopping (by rw [hsame]) (by rw [hsame]) (by rw [hsame])

/-- The beginning of a run of `reload_config`: the new generation is complete before it becomes the
current one, and otherwise the old one stays. -/
theorem reload (h : InService parseIpNet acts st) {config : Config} {env : ReloadEnv}
    (hidle : st.phase = .idle) :
    InService parseIpNet (acts ++ [.reload config env]) (st.reload parseIpNet config env) := by
  unfold Process.reload
  split
  · rename_i hbuild hvalid hset
    split
    · rename_i tasks hspawn
      have hgen : Function.update st.gens st.numGens ⟨config, tasks, [], 0⟩ st.numGens =
          ⟨config, tasks, [], 0⟩ := Function.update_self _ _ _
      refine ⟨Nat.lt_succ_self _, fun g rest hphase => ?_, ?_, ?_, ?_, ?_⟩
      · cases hphase
        exact h.current_lt.ne
      · exact congrArg Generation.shutDown hgen
      · exact (congrArg (fun gen : Generation => gen.config.validate parseIpNet) hgen).trans hvalid
      · simp only [addGeneration, hgen]
        exact ⟨env.spawn, tasks, hspawn, rfl⟩
      · intro i task hi hnot
        simp only [addGeneration, hgen] at hi
        have hmem : task ∈ (spawnAllTasks config env.spawn).1 := by
          rw [hspawn]
          exact List.mem_of_getElem? hi
        rw [running_of_mem_spawnAllTasks hmem] at hnot
        cases hnot
    · refine h.of_other h.current_lt.ne' rfl rfl (Nat.le_succ _) fun g rest hphase => ?_
      cases hphase
      exact h.current_lt.ne'
  · exact h.of_same rfl le_rfl (by simp [hidle]) rfl rfl rfl

theorem map_guard_endTask (gen : Generation) (i : ℕ) :
    (gen.endTask i).tasks.map AuxTask.guard = gen.tasks.map AuxTask.guard := by
  refine List.ext_getElem? fun j => ?_
  rw [Generation.endTask, List.getElem?_map, List.getElem?_map, List.getElem?_modify,
    Option.map_eq_map, Option.map_map]
  congr 1
  funext task
  rw [Function.comp_apply]
  split_ifs <;> rfl

/-- A task of a generation ends by itself. -/
theorem endTask (h : InService parseIpNet acts st) (g i : ℕ) :
    InService parseIpNet (acts ++ [.taskEnds g i]) (st.modify g (Generation.endTask · i)) := by
  by_cases hg : g = st.current
  · subst hg
    have hgen : (st.modify st.current (Generation.endTask · i)).gens st.current =
        (st.gens st.current).endTask i := Function.update_self _ _ _
    refine ⟨h.current_lt, h.stopping, ?_, ?_, ?_, fun j task hj hnot => ?_⟩
    · exact (congrArg Generation.shutDown hgen).trans h.unshut
    · exact (congrArg (fun gen : Generation => gen.config.validate parseIpNet) hgen).trans h.valid
    · obtain ⟨env, tasks, hspawn, hguards⟩ := h.started
      refine ⟨env, tasks, ?_, ?_⟩
      · exact (congrArg (fun gen : Generation => spawnAllTasks gen.config env) hgen).trans hspawn
      · exact (congrArg (fun gen : Generation => gen.tasks.map AuxTask.guard) hgen).trans
          ((map_guard_endTask _ i).trans hguards)
    · change ((st.modify st.current (Generation.endTask · i)).gens st.current).tasks[j]? = _ at hj
      rw [hgen, Generation.endTask, List.getElem?_modify] at hj
      obtain ⟨old, hold, rfl⟩ := Option.map_eq_some_iff.mp hj
      by_cases hij : i = j
      · subst hij
        exact List.mem_append_right _ List.mem_cons_self
      · rw [if_neg hij] at hnot
        exact List.mem_append_left _ (h.ended j old hold hnot)
  · exact h.of_other hg rfl rfl le_rfl h.stopping

/-- Another holder of a generation comes or goes. -/
theorem modify_holders (h : InService parseIpNet acts st) (g : ℕ) (f : ℕ → ℕ) :
    InService parseIpNet (acts ++ [a])
      (st.modify g fun gen => { gen with holders := f gen.holders }) := by
  refine h.of_same rfl le_rfl h.stopping ?_ ?_ ?_
  all_goals
    rw [gens_modify]
    split_ifs with hg
    · rw [← hg]
    · rfl

/-- **One step of the process.** -/
theorem step (h : InService parseIpNet acts st) (hs : st.step parseIpNet a = some st') :
    InService parseIpNet (acts ++ [a]) st' := by
  cases a with
  | reload config env =>
    simp only [Process.step, Option.ite_none_right_eq_some, Option.some.injEq] at hs
    obtain ⟨hidle, rfl⟩ := hs
    exact h.reload hidle
  | shutdownNext =>
    simp only [Process.step] at hs
    split at hs
    · rename_i g guard rest hphase
      cases hs
      have hg := h.stopping g _ hphase
      refine h.of_other hg rfl rfl le_rfl fun g' rest' hphase' => ?_
      cases hphase'
      exact hg
    · cases hs
  | finish =>
    simp only [Process.step] at hs
    split at hs
    · cases hs
      exact h.of_same rfl le_rfl (fun g rest hphase => by cases hphase) rfl rfl rfl
    · cases hs
  | hold g =>
    simp only [Process.step, Option.ite_none_left_eq_some, Option.some.injEq] at hs
    obtain ⟨-, rfl⟩ := hs
    exact h.modify_holders g (· + 1)
  | release g =>
    simp only [Process.step, Option.ite_none_left_eq_some, Option.some.injEq] at hs
    obtain ⟨-, rfl⟩ := hs
    exact h.modify_holders g (· - 1)
  | taskEnds g i =>
    simp only [Process.step, Option.some.injEq] at hs
    subst hs
    exact h.endTask g i

end InService

theorem numGens_le_of_step (hs : st.step parseIpNet a = some st') : st.numGens ≤ st'.numGens := by
  cases a with
  | reload config env =>
    simp only [step, Option.ite_none_right_eq_some, Option.some.injEq] at hs
    obtain ⟨-, rfl⟩ := hs
    unfold reload
    split
    · split <;> exact Nat.le_succ _
    · exact le_rfl
  | shutdownNext | finish =>
    simp only [step] at hs
    split at hs
    · cases hs
      exact le_rfl
    · cases hs
  | hold g | release g =>
    simp only [step, Option.ite_none_left_eq_some, Option.some.injEq] at hs
    obtain ⟨-, rfl⟩ := hs
    exact le_rfl
  | taskEnds g i =>
    simp only [step, Option.some.injEq] at hs
    exact hs ▸ le_rfl

end Process

/-! ### The proxy modes -/

namespace Daemon

variable {parseIpNet : Str → Option IpNet} {st st' : Daemon} {a : DaemonAction}

/-- The proxy mode of every generation is the configured one, rotated once for each receipt that has
found the generation, but for the one that is being handled. -/
structure Rotated (st : Daemon) : Prop where
  mode : ∀ g, ProxyMode.ofUInt8 (st.proxyMode g) =
    ProxyMode.next^[st.rotated.count g] (st.configured g)
  found : st.found = st.rotated ++ st.usr1.pending
  known : ∀ g ∈ st.found, g < st.process.numGens
  read : ∀ g old, st.usr1 = .read g old → old = ProxyMode.ofUInt8 (st.proxyMode g)

/-- The steps of the process behind a step of the daemon. -/
theorem process_of_step (hs : st.step parseIpNet a = some st') :
    (∃ b, a.process? = some b ∧ st.process.step parseIpNet b = some st'.process) ∨
      a.process? = none ∧ st'.process = st.process := by
  cases a with
  | sighup config proxyMode env =>
    obtain ⟨process, hprocess, rfl⟩ := Option.map_eq_some_iff.mp hs
    exact .inl ⟨_, rfl, hprocess⟩
  | process b =>
    simp only [step] at hs
    split at hs
    · rename_i h
      cases h
    · cases hs
    · rename_i b' _ h
      cases h
      obtain ⟨process, hprocess, rfl⟩ := Option.map_eq_some_iff.mp hs
      exact .inl ⟨_, rfl, hprocess⟩
    all_goals
      rename_i h
      cases h
  | sendUsr1 =>
    cases hs
    exact .inr ⟨rfl, rfl⟩
  | mergeUsr1 =>
    simp only [step] at hs
    split_ifs at hs
    cases hs
    exact .inr ⟨rfl, rfl⟩
  | recvUsr1 =>
    simp only [step] at hs
    split at hs
    · split_ifs at hs
      cases hs
      exact .inr ⟨rfl, rfl⟩
    · cases hs
  | loadState | readMode | storeMode =>
    simp only [step] at hs
    split at hs
    · cases hs
      exact .inr ⟨rfl, rfl⟩
    · cases hs

theorem numGens_le_of_step (hs : st.step parseIpNet a = some st') :
    st.process.numGens ≤ st'.process.numGens := by
  obtain ⟨b, -, hb⟩ | ⟨-, heq⟩ := process_of_step hs
  · exact Process.numGens_le_of_step hb
  · rw [heq]

/-- The signals that have been sent: those that have found a generation, have been received, wait,
or have been merged with another one. -/
def accounted (st : Daemon) : ℕ := st.found.length + st.usr1.unloaded + st.signals + st.merged

/-- Every signal is accounted for, and one that waits goes on waiting until a receipt. -/
theorem signals_of_step (hs : st.step parseIpNet a = some st') :
    st'.accounted = st.accounted + [a].countP DaemonAction.isSend ∧
      (0 < st.signals → 0 < st'.signals ∨ a.isReceipt = true) := by
  cases a with
  | sighup config proxyMode env =>
    obtain ⟨process, -, rfl⟩ := Option.map_eq_some_iff.mp hs
    exact ⟨rfl, .inl⟩
  | process b =>
    simp only [step] at hs
    split at hs
    · rename_i h
      cases h
    · cases hs
    · obtain ⟨process, -, rfl⟩ := Option.map_eq_some_iff.mp hs
      exact ⟨rfl, .inl⟩
    all_goals
      rename_i h
      cases h
  | sendUsr1 =>
    cases hs
    refine ⟨?_, fun _ => .inl (Nat.succ_pos _)⟩
    simp only [accounted, DaemonAction.isSend, List.countP_singleton, if_true]
    omega
  | mergeUsr1 =>
    simp only [step] at hs
    split_ifs at hs with htwo
    cases hs
    refine ⟨?_, fun _ => .inl ?_⟩
    · simp only [accounted, DaemonAction.isSend, List.countP_singleton, Bool.false_eq_true,
        if_false]
      omega
    · change 0 < st.signals - 1
      omega
  | recvUsr1 =>
    simp only [step] at hs
    split at hs
    · rename_i hwaiting
      split_ifs at hs with hsignals
      cases hs
      refine ⟨?_, fun _ => .inr rfl⟩
      simp only [accounted, hwaiting, Usr1.unloaded, DaemonAction.isSend, List.countP_singleton,
        Bool.false_eq_true, if_false]
      omega
    · cases hs
  | loadState =>
    simp only [step] at hs
    split at hs
    · rename_i hreceived
      cases hs
      refine ⟨?_, .inl⟩
      simp only [accounted, hreceived, Usr1.unloaded, DaemonAction.isSend, List.countP_singleton,
        Bool.false_eq_true, if_false, List.length_append, List.length_singleton]
      omega
    · cases hs
  | readMode =>
    simp only [step] at hs
    split at hs
    · rename_i g hloaded
      cases hs
      refine ⟨?_, .inl⟩
      simp only [accounted, hloaded, Usr1.unloaded]
      rfl
    · cases hs
  | storeMode =>
    simp only [step] at hs
    split at hs
    · rename_i g old hread
      cases hs
      refine ⟨?_, .inl⟩
      simp only [accounted, hread, Usr1.unloaded]
      rfl
    · cases hs

/-- A signal that has been sent waits, or there has been a receipt since. -/
def Answered (acts : List DaemonAction) (st : Daemon) : Prop :=
  ∀ before after, acts = before ++ .sendUsr1 :: after →
    0 < st.signals ∨ ∃ b ∈ after, b.isReceipt = true

theorem Answered.step {acts : List DaemonAction} (h : Answered acts st)
    (hs : st.step parseIpNet a = some st') : Answered (acts ++ [a]) st' := by
  intro before after heq
  obtain rfl | ⟨after', b, rfl⟩ := List.eq_nil_or_concat after
  · -- the signal has been sent by this step
    obtain rfl : a = .sendUsr1 := by simpa using (List.append_inj' heq rfl).2
    cases hs
    exact .inl (Nat.succ_pos _)
  · rw [List.concat_eq_append, ← List.cons_append, ← List.append_assoc] at heq
    obtain ⟨rfl, hb⟩ := List.append_inj' heq rfl
    obtain rfl := List.singleton_inj.mp hb
    rw [List.concat_eq_append]
    obtain hwaits | ⟨b, hmem, hreceipt⟩ := h before after' rfl
    · refine ((signals_of_step hs).2 hwaits).imp_right fun hreceipt => ?_
      exact ⟨a, List.mem_append_right _ List.mem_cons_self, hreceipt⟩
    · exact .inr ⟨b, List.mem_append_left _ hmem, hreceipt⟩

namespace Rotated

theorem init (config : Config) (proxyMode : ProxyMode) (env : SpawnEnv) :
    (Daemon.init config proxyMode env).Rotated where
  mode _ := ProxyMode.ofUInt8_asU8 proxyMode
  found := rfl
  known _ h := by cases h
  read _ _ h := by cases h

/-- **One step.** A receipt that finds a generation rotates that one, whatever is swapped in
meanwhile. -/
theorem step (h : st.Rotated) (hcurrent : st.process.current < st.process.numGens)
    (hs : st.step parseIpNet a = some st') : st'.Rotated := by
  have hle := numGens_le_of_step hs
  have hpending (g : ℕ) (hg : st.usr1.pending = [g]) : g < st.process.numGens := by
    refine h.known g ?_
    rw [h.found, hg]
    exact List.mem_append_right _ List.mem_cons_self
  cases a with
  | sighup config proxyMode env =>
    obtain ⟨process, hprocess, rfl⟩ := Option.map_eq_some_iff.mp hs
    have hfresh : st.rotated.count st.process.numGens = 0 := by
      refine List.count_eq_zero_of_not_mem fun hmem => ?_
      have hlt := h.known _ (h.found ▸ List.mem_append_left _ hmem)
      exact hlt.false
    refine ⟨fun g => ?_, h.found, fun g hg => (h.known g hg).trans_le hle, fun g old hread => ?_⟩
    · dsimp only
      rcases eq_or_ne g st.process.numGens with rfl | hne
      · rw [Function.update_self, Function.update_self, hfresh, ProxyMode.ofUInt8_asU8]
        rfl
      · rw [Function.update_of_ne hne, Function.update_of_ne hne, h.mode]
    · have hlt := hpending g (congrArg Usr1.pending hread)
      dsimp only
      rw [Function.update_of_ne hlt.ne]
      exact h.read g old hread
  | process b =>
    simp only [Daemon.step] at hs
    split at hs
    · rename_i h
      cases h
    · cases hs
    · obtain ⟨process, hprocess, rfl⟩ := Option.map_eq_some_iff.mp hs
      exact ⟨h.mode, h.found, fun g hg => (h.known g hg).trans_le hle, h.read⟩
    all_goals
      rename_i h
      cases h
  | sendUsr1 =>
    cases hs
    exact ⟨h.mode, h.found, h.known, h.read⟩
  | mergeUsr1 =>
    simp only [Daemon.step] at hs
    split_ifs at hs
    cases hs
    exact ⟨h.mode, h.found, h.known, h.read⟩
  | recvUsr1 =>
    simp only [Daemon.step] at hs
    split at hs
    · rename_i hwaiting
      split_ifs at hs
      cases hs
      refine ⟨h.mode, ?_, h.known, fun g old hread => by cases hread⟩
      rw [h.found, hwaiting]
      rfl
    · cases hs
  | loadState =>
    simp only [Daemon.step] at hs
    split at hs
    · rename_i hreceived
      cases hs
      refine ⟨h.mode, ?_, fun g hg => ?_, fun g old hread => by cases hread⟩
      · simp only [h.found, hreceived, Usr1.pending, List.append_nil]
      · obtain hold | hnew := List.mem_append.mp hg
        · exact h.known g hold
        · exact List.mem_singleton.mp hnew ▸ hcurrent
    · cases hs
  | readMode =>
    simp only [Daemon.step] at hs
    split at hs
    · rename_i g hloaded
      cases hs
      refine ⟨h.mode, ?_, h.known, fun g' old hread => ?_⟩
      · rw [h.found, hloaded]
        rfl
      · cases hread
        rfl
    · cases hs
  | storeMode =>
    simp only [Daemon.step] at hs
    split at hs
    · rename_i g old hread
      cases hs
      refine ⟨fun g' => ?_, ?_, h.known, fun g' old' hread' => by cases hread'⟩
      · dsimp only
        rw [List.count_append]
        rcases eq_or_ne g' g with rfl | hne
        · rw [Function.update_self, List.count_singleton_self, Function.iterate_succ_apply',
            ProxyMode.ofUInt8_asU8, h.read g' old hread, h.mode]
        · have hzero : [g].count g' = 0 := List.count_eq_zero_of_not_mem (by simpa using hne)
          rw [Function.update_of_ne hne, hzero, Nat.add_zero, h.mode]
      · rw [h.found, hread]
        exact (List.append_nil _).symm
    · cases hs

end Rotated

/-- **The current generation.** Let a process be started with a valid configuration whose tasks all
start. After every run of reloads, which may fail at any point, of rotations, and of other work that
comes and goes, the configuration of the current generation is valid, and its tasks are all those
that `spawn_all_tasks` starts for it. None of their tokens is set, so that a task of it that does
not run has ended by itself. The proxy mode is the configured one, rotated once for each receipt of
a `SIGUSR1` that has found this generation and been handled; every receipt but the one being handled
has rotated the generation that it found, once. Every signal that has been sent has been received,
waits, or was merged while it waited, and none is without an answer: after each there is a receipt,
unless a signal waits. -/
theorem current_in_service {config : Config} {proxyMode : ProxyMode} {env : SpawnEnv}
    {acts : List DaemonAction} (hvalid : config.validate parseIpNet = .ok ())
    (hstarted : (spawnAllTasks config env).2 = true)
    (hrun : run (step parseIpNet) (init config proxyMode env) acts = some st) :
    (st.process.gens st.process.current).config.validate parseIpNet = .ok () ∧
    (∃ env tasks,
      spawnAllTasks (st.process.gens st.process.current).config env = (tasks, true) ∧
      (st.process.gens st.process.current).tasks.map AuxTask.guard =
        tasks.map AuxTask.guard) ∧
    (∀ (i : ℕ) (task : AuxTask),
      (st.process.gens st.process.current).tasks[i]? = some task →
      st.process.tokenSet st.process.current task.guard = false ∧
      (task.running = false → .process (.taskEnds st.process.current i) ∈ acts)) ∧
    ProxyMode.ofUInt8 (st.proxyMode st.process.current) =
      ProxyMode.next^[st.rotated.count st.process.current] (st.configured st.process.current) ∧
    st.found = st.rotated ++ st.usr1.pending ∧
    acts.countP DaemonAction.isSend =
      st.found.length + st.usr1.unloaded + st.signals + st.merged ∧
    ∀ before after, acts = before ++ .sendUsr1 :: after →
      0 < st.signals ∨ ∃ b ∈ after, b.isReceipt = true := by
  obtain ⟨hservice, hrotated, hsent, hanswered⟩ :
      Process.InService parseIpNet (acts.filterMap DaemonAction.process?) st.process ∧
      st.Rotated ∧ acts.countP DaemonAction.isSend = st.accounted ∧ Answered acts st := by
    refine run_invariant (I := fun acts st =>
      Process.InService parseIpNet (acts.filterMap DaemonAction.process?) st.process ∧
      st.Rotated ∧ acts.countP DaemonAction.isSend = st.accounted ∧ Answered acts st) ?_ ?_ hrun
    · refine ⟨.init hvalid hstarted, .init config proxyMode env, rfl, fun before after heq => ?_⟩
      simp at heq
    rintro as t a u ⟨hservice, hrotated, hsent, hanswered⟩ hs
    refine ⟨?_, hrotated.step hservice.current_lt hs, ?_, hanswered.step hs⟩
    · rw [List.filterMap_append]
      obtain ⟨b, hb, hstep⟩ | ⟨hnone, hsame⟩ := process_of_step hs
      · rw [List.filterMap_cons_some hb]
        exact hservice.step hstep
      · rw [List.filterMap_cons_none hnone, hsame]
        simpa using hservice
    · rw [List.countP_append, hsent, (signals_of_step hs).1]
  refine ⟨hservice.valid, hservice.started, fun i task hi => ⟨hservice.tokenSet_eq_false _, ?_⟩,
    hrotated.mode _, hrotated.found, hsent, hanswered⟩
  intro hnot
  obtain ⟨b, hb, hprocess⟩ := List.mem_filterMap.mp (hservice.ended i task hi hnot)
  cases b with
  | process b =>
    obtain rfl : b = .taskEnds st.process.current i := Option.some.inj hprocess
    exact hb
  | sighup | sendUsr1 | mergeUsr1 | recvUsr1 | loadState | readMode | storeMode => cases hprocess

/-- A reload overtakes the handler of a first signal; two more are sent then, and merged. -/
def overtakenRun : List DaemonAction :=
  [.sendUsr1, .recvUsr1, .loadState, .readMode,
    .sighup Process.printerConfig .global ⟨true, Process.allBound⟩, .sendUsr1, .storeMode,
    .process .shutdownNext, .sendUsr1, .mergeUsr1, .recvUsr1, .loadState, .readMode, .storeMode]

theorem current_in_service_overtakenRun : ∃ st,
    run (step fun _ => none) (init Process.printerConfig .smart Process.allBound) overtakenRun =
      some st ∧ st.process.current = 1 ∧ st.process.tokenSet 1 .tcpListeners = false ∧
    ProxyMode.ofUInt8 (st.proxyMode 1) = .bypass ∧ st.found.length + st.merged = 3 := by
  obtain ⟨st, hrun, hcurrent, hrotated, hconfigured, htask, hsignals, husr1⟩ : ∃ st,
      run (step fun _ => none) (init Process.printerConfig .smart Process.allBound) overtakenRun =
        some st ∧ st.process.current = 1 ∧ st.rotated = [0, 1] ∧ st.configured 1 = .global ∧
      (st.process.gens 1).tasks[0]? = some { guard := .tcpListeners } ∧ st.signals = 0 ∧
      st.usr1 = .waiting :=
    ⟨_, rfl, by decide +kernel, by decide +kernel, by decide +kernel, by decide +kernel, rfl, rfl⟩
  obtain ⟨-, -, htasks, hmode, -, hsent, -⟩ :=
    current_in_service (by decide +kernel) (by decide +kernel) hrun
  rw [hcurrent] at htasks hmode
  refine ⟨st, hrun, hcurrent, (htasks 0 _ htask).1, ?_, ?_⟩
  · rw [hmode, hrotated, hconfigured]
    decide
  · have hthree : overtakenRun.countP DaemonAction.isSend = 3 := rfl
    rw [hthree, hsignals, husr1] at hsent
    exact hsent.symm

end Daemon

end XtpRs.Reload
