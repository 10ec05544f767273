import XtpRs.Reload.Generations
import XtpRs.Upstream.Registry

/-!
# Growth of the registries

Every proxied TCP connection is registered with its upstream, whatever the configuration. Entries of
connections that have ended are dropped only in `run_score_task`, which `spawn_all_tasks` starts
only with scoring enabled. `Registries` are the registries of all upstreams of a generation, with
the connections opened and closed and rounds in which every periodic task ticks once.

## Main definitions

* `periodicTasks`: the periodic tasks that are started, with the upstream of each score task.
* `Registries.step`: a connection is opened or closed, or a round.
* `Registries.Bounded`: only live connections and those ended after the last round are registered.

## Main results

* `map_guard_periodicTasks`: the tasks are those of `spawnPeriodicTasks`.
* `Registries.registry_round`: what a round leaves in a registry.
* `Registries.bounded_iff`: the registries are bounded if and only if scores are enabled.
* `Registries.exists_length_eq`: without scores, a registry reaches any length.
-/

namespace XtpRs.Reload

open Lib Upstream

/-- A periodic task. -/
inductive PeriodicTask
  | healthCheck
  | runScoreTask (up : ℕ)
  | runRelativeScoreTask
  | scoreDebugPrinter
  | udpGcLoop
  deriving DecidableEq, Repr

/-- The guard of the task. -/
def PeriodicTask.guard : PeriodicTask → Guard
  | healthCheck => .healthCheck
  | runScoreTask _ => .upstreamScores
  | runRelativeScoreTask => .relativeScore
  | scoreDebugPrinter => .scoreDebugPrinter
  | udpGcLoop => .udpGc

/-- The periodic tasks that `spawn_all_tasks` starts. -/
def periodicTasks (config : Config) (env : SpawnEnv) : List PeriodicTask :=
  (if 0 < config.healthCheckIntervalSecs then [.healthCheck] else []) ++
  (if config.disableUpstreamScore then []
   else
    (List.range config.upstream.length).map .runScoreTask ++
    (if config.enableRelativeScoring then [.runRelativeScoreTask] else []) ++
    (if 0 < config.upstreamScoreDebugIntervalSecs && env.debugEnabled then [.scoreDebugPrinter]
     else [])) ++
  [.udpGcLoop]

theorem map_guard_periodicTasks (config : Config) (env : SpawnEnv) :
    (periodicTasks config env).map (fun task => { guard := task.guard }) =
      spawnPeriodicTasks config env := by
  have hscores : (List.range config.upstream.length).map
      (fun _ => ({ guard := .upstreamScores } : AuxTask)) =
        config.upstream.map fun _ => { guard := .upstreamScores } := by
    rw [List.map_const', List.map_const', List.length_range]
  unfold periodicTasks spawnPeriodicTasks
  rw [← hscores]
  split_ifs <;> simp [PeriodicTask.guard, Function.comp_def]

/-- Exactly with scores enabled there is a task for each upstream. -/
theorem runScoreTask_mem_iff {config : Config} {env : SpawnEnv} {up : ℕ} :
    .runScoreTask up ∈ periodicTasks config env ↔
      config.disableUpstreamScore = false ∧ up < config.upstream.length := by
  unfold periodicTasks
  split_ifs <;> simp_all

/-- The registries of the upstreams of a generation, the connections alive and those that have ended
after the last round. -/
structure Registries where
  registries : ℕ → List RegistryEntry := fun _ => []
  count : ℕ := 0
  alive : List ConnId := []
  endedSinceRound : List ConnId := []

/-- A proxied TCP connection is opened or closed, or every periodic task ticks once. -/
inductive RegistryAction
  | opened (up : ℕ) (fd : ℤ)
  | closed (conn : ConnId)
  | round
  deriving DecidableEq, Repr

namespace Registries

/-- What a tick of a task does to the registries. -/
def tick (s : Registries) : PeriodicTask → Registries
  | .runScoreTask up =>
    { s with registries :=
        Function.update s.registries up (Registry.sweep (· ∈ s.alive) (s.registries up)) }
  | .healthCheck | .runRelativeScoreTask | .scoreDebugPrinter | .udpGcLoop => s

variable (config : Config) (env : SpawnEnv)

/-- A step. -/
def step (s : Registries) : RegistryAction → Option Registries
  | .opened up fd =>
    if up < config.upstream.length then
      some { s with
        registries := Function.update s.registries up (Registry.track (s.registries up) s.count fd)
        count := s.count + 1
        alive := s.count :: s.alive }
    else none
  | .closed conn =>
    if conn ∈ s.alive then
      some { s with alive := s.alive.erase conn, endedSinceRound := conn :: s.endedSinceRound }
    else none
  | .round => some { (periodicTasks config env).foldl tick s with endedSinceRound := [] }

/-- Only connections that are alive or have ended after the last round are registered. -/
def Bounded (s : Registries) : Prop :=
  ∀ up, ∀ e ∈ s.registries up, e.conn ∈ s.alive ∨ e.conn ∈ s.endedSinceRound

variable {config : Config} {env : SpawnEnv} {s t : Registries}

/-! ### A round -/

/-- The ticks sweep the registries of the upstreams that have a task. -/
theorem foldl_tick (tasks : List PeriodicTask) (s : Registries) :
    (tasks.foldl tick s).alive = s.alive ∧ (tasks.foldl tick s).count = s.count ∧
      ∀ up, (tasks.foldl tick s).registries up =
        if .runScoreTask up ∈ tasks then Registry.sweep (· ∈ s.alive) (s.registries up)
        else s.registries up := by
  induction tasks generalizing s with
  | nil => simp
  | cons task tasks ih =>
      obtain ⟨halive, hcount, hregistries⟩ := ih (s.tick task)
      have htick : (s.tick task).alive = s.alive ∧ (s.tick task).count = s.count := by
        cases task <;> exact ⟨rfl, rfl⟩
      refine ⟨halive.trans htick.1, hcount.trans htick.2, fun up => ?_⟩
      rw [List.foldl_cons, hregistries, htick.1]
      cases task with
      | runScoreTask up' =>
          by_cases hup : up = up'
          · subst hup
            simp [tick, Registry.sweep]
          · simp [tick, hup]
      | healthCheck => simp [tick]
      | runRelativeScoreTask => simp [tick]
      | scoreDebugPrinter => simp [tick]
      | udpGcLoop => simp [tick]

theorem registry_round (hs : step config env s .round = some t) :
    t.alive = s.alive ∧ t.count = s.count ∧ t.endedSinceRound = [] ∧ ∀ up, t.registries up =
      if config.disableUpstreamScore = false ∧ up < config.upstream.length then
        Registry.sweep (· ∈ s.alive) (s.registries up)
      else s.registries up := by
  obtain rfl := Option.some.inj hs
  obtain ⟨halive, hcount, hregistries⟩ := foldl_tick (periodicTasks config env) s
  refine ⟨halive, hcount, rfl, fun up => (hregistries up).trans ?_⟩
  exact if_congr runScoreTask_mem_iff rfl rfl

/-! ### Runs with scores -/

/-- Nothing is registered with an upstream that does not exist. -/
structure Inv (config : Config) (s : Registries) : Prop where
  bounded : s.Bounded
  unused : ∀ up, config.upstream.length ≤ up → s.registries up = []

theorem Inv.step {a : RegistryAction}
    (hconfig : config.disableUpstreamScore = false ∨ config.upstream = []) (h : Inv config s)
    (hs : Registries.step config env s a = some t) : Inv config t := by
  cases a with
  | opened up fd =>
      simp only [Registries.step] at hs
      split_ifs at hs with hup
      obtain rfl := Option.some.inj hs
      refine ⟨fun up' e he => ?_, fun up' hup' => ?_⟩
      · by_cases heq : up' = up
        · subst heq
          simp only [Function.update_self, Registry.track, List.mem_append,
            List.mem_singleton] at he
          obtain he | rfl := he
          · exact (h.bounded up' e he).imp_left (List.mem_cons_of_mem _)
          · exact .inl List.mem_cons_self
        · simp only [Function.update_of_ne heq] at he
          exact (h.bounded up' e he).imp_left (List.mem_cons_of_mem _)
      · have heq : up' ≠ up := by omega
        simp only [Function.update_of_ne heq]
        exact h.unused up' hup'
  | closed conn =>
      simp only [Registries.step] at hs
      split_ifs at hs with hconn
      obtain rfl := Option.some.inj hs
      refine ⟨fun up e he => ?_, h.unused⟩
      by_cases heq : e.conn = conn
      · exact .inr (heq ▸ List.mem_cons_self)
      · exact (h.bounded up e he).imp (fun hmem => (List.mem_erase_of_ne heq).mpr hmem)
          (List.mem_cons_of_mem _)
  | round =>
      obtain ⟨halive, -, hended, hregistries⟩ := registry_round hs
      refine ⟨fun up e he => ?_, fun up hup => ?_⟩
      · rw [hregistries] at he
        split_ifs at he with hscores
        · exact .inl (halive ▸ of_decide_eq_true (List.mem_filter.mp he).2)
        · have hunused : s.registries up = [] := h.unused up (by
            obtain hconfig | hconfig := hconfig
            · exact not_lt.mp fun hlt => hscores ⟨hconfig, hlt⟩
            · rw [hconfig]
              exact Nat.zero_le _)
          exact absurd (hunused ▸ he) List.not_mem_nil
      · rw [hregistries, h.unused up hup]
        simp [Registry.sweep]

/-! ### Runs without scores -/

/-- Without scores every connection leaves its entry behind. -/
theorem exists_length_eq (hdisabled : config.disableUpstreamScore = true)
    (hup : config.upstream ≠ []) (n : ℕ) :
    ∃ s, Reachable (step config env) {} s ∧ s.alive = [] ∧ s.endedSinceRound = [] ∧
      (s.registries 0).length = n := by
  induction n with
  | zero => exact ⟨{}, .refl, rfl, rfl, rfl⟩
  | succ n ih =>
      obtain ⟨s, hs, halive, hended, hlength⟩ := ih
      have hpos : 0 < config.upstream.length := List.length_pos_of_ne_nil hup
      obtain ⟨u, hu, hualive, hulength⟩ : ∃ u, step config env s (.opened 0 0) = some u ∧
          u.alive = [s.count] ∧ (u.registries 0).length = n + 1 :=
        ⟨_, if_pos hpos, by rw [halive], by simp [Registry.track, hlength]⟩
      obtain ⟨v, hv, hvalive, hvlength⟩ : ∃ v, step config env u (.closed s.count) = some v ∧
          v.alive = [] ∧ (v.registries 0).length = n + 1 :=
        ⟨_, if_pos (hualive ▸ List.mem_cons_self), by simp [hualive], hulength⟩
      obtain ⟨t, ht⟩ : ∃ t, step config env v .round = some t := ⟨_, rfl⟩
      obtain ⟨halive', -, hended', hregistries⟩ := registry_round ht
      refine ⟨t, ((hs.tail trivial hu).tail trivial hv).tail trivial ht, halive'.trans hvalive,
        hended', ?_⟩
      rw [hregistries, if_neg (by simp [hdisabled]), hvlength]

/-- In every run the registries hold only connections that are alive or have ended after the last
round, if and only if scores are enabled or there is no upstream. -/
theorem bounded_iff (config : Config) (env : SpawnEnv) :
    (∀ s, Reachable (step config env) {} s → s.Bounded) ↔
      config.disableUpstreamScore = false ∨ config.upstream = [] := by
  constructor
  · intro h
    by_contra hnot
    simp only [not_or, Bool.not_eq_false] at hnot
    obtain ⟨s, hs, halive, hended, hlength⟩ :
        ∃ s, Reachable (step config env) {} s ∧ s.alive = [] ∧ s.endedSinceRound = [] ∧
          (s.registries 0).length = 1 := exists_length_eq hnot.1 hnot.2 1
    obtain ⟨e, he⟩ := List.length_eq_one_iff.mp hlength
    have hbounded := h s hs 0 e (by simp [he])
    simp [halive, hended] at hbounded
  · intro hconfig s hs
    have hinit : Inv config {} := ⟨fun _ _ he => absurd he List.not_mem_nil, fun _ _ => rfl⟩
    exact (hs.invariant hinit fun _ _ _ hI _ hstep => hI.step hconfig hstep).bounded

/-- One upstream in the group `default`, with scoring disabled. -/
def unscoredConfig : Config where
  upstream := [{ id := [0x61], addr := .v4 ⟨127, 0, 0, 1⟩ 1080 }]
  disableUpstreamScore := true

/-- A connection that has ended before a round is still registered after it. -/
theorem not_bounded_unscored :
    unscoredConfig.validate (fun _ => none) = .ok () ∧
      ∃ s, Reachable (step unscoredConfig ⟨fun _ => true, false⟩) {} s ∧ ¬s.Bounded := by
  refine ⟨by decide +kernel, ?_⟩
  obtain ⟨s, hs, halive, hended, hmem⟩ :
      ∃ s, Reachable (step unscoredConfig ⟨fun _ => true, false⟩) {} s ∧
        (s.alive = [] ∧ s.endedSinceRound = [] ∧ ⟨0, 7⟩ ∈ s.registries 0) :=
    exists_steps_of_run (l := [.opened 0 7, .closed 0, .round]) (fun _ _ _ => trivial)
      (by decide +kernel)
  refine ⟨s, hs, fun h => ?_⟩
  have hbounded := h 0 _ hmem
  simp [halive, hended] at hbounded

end Registries

end XtpRs.Reload
