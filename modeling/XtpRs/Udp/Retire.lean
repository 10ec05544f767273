import XtpRs.Udp.Tracking

/-!
# Retiring the UDP side of a generation

`AppState::shutdown_for_reload` stops the listeners and port-forwards of a generation, then its
garbage collection, then its `UdpRuntime`. A listener runs `reap_pending_udp_sniff`, hence
`get_or_create_udp_session`, inline; when it does not end in time `TaskGuard::shutdown` aborts it
at an await point. Packet handlers are detached tasks: they may begin and continue calls at any
time, before and after the shutdown.

`Generation` is the runtime with the progress of `shutdown_for_reload`; the phase restricts which
steps of the runtime are possible. The listener guards are shut down one after the other in the
source; here they share one phase, in which any listener may still run or be aborted.

## Main results

* `Generation.sessions_cancelled_of_retired`: a retired generation has no live session, if no
  call was aborted while its creation was on its way to the map and every ended creation has been
  published.
* `Generation.abort_leaves_live_session`: without this condition a session survives.
-/

namespace XtpRs.Udp

open Lib

/-- The progress of `AppState::shutdown_for_reload`. -/
inductive ReloadPhase
  | serving
  /-- Inside the `shutdown` of the listener and port-forward guards. -/
  | stoppingListeners
  /-- Inside the `shutdown` of the garbage collection guard. -/
  | stoppingGc
  /-- Inside `UdpRuntime::shutdown`. -/
  | stoppingRuntime (shutdown : ℕ)
  /-- Past `UdpRuntime::shutdown`: the score and health check guards, then the return. -/
  | returned
  deriving DecidableEq, Repr

/-- The UDP runtime of a generation and the progress of its retirement. -/
structure Generation where
  rt : UdpRuntime
  phase : ReloadPhase

/-- A step of a task of the generation, or of `shutdown_for_reload`. -/
inductive GenerationAction
  | runtime (a : Action)
  /-- `shutdown_for_reload` is called. -/
  | beginReload
  /-- All listener and port-forward tasks have ended. -/
  | listenersStopped
  /-- The garbage collection task has ended; `UdpRuntime::shutdown` is called. -/
  | gcStopped
  /-- `UdpRuntime::shutdown` has returned. -/
  | runtimeStopped
  deriving DecidableEq, Repr

namespace Generation

/-- The call has ended. -/
def callEnded (pc : CallPc) : Bool :=
  match pc with
  | .returned _ | .aborted => true
  | _ => false

/-- The pass has ended. -/
def gcEnded (gc : GcPass) : Bool :=
  gc = .done

/-- Whether a step of the runtime is possible in a phase. Listeners begin calls until their guards
are shut down and are aborted only by these; the same holds for the garbage collection.
`UdpRuntime::shutdown` is only called by `shutdown_for_reload`. -/
def enabled (phase : ReloadPhase) : Action → Bool
  | .call _ listener => !listener || phase = .serving || phase = .stoppingListeners
  | .abort _ => phase = .stoppingListeners
  | .gcSnapshot _ => phase = .serving || phase = .stoppingListeners || phase = .stoppingGc
  | .gcKill _ => phase = .stoppingGc
  | .shutdown => false
  | _ => true

/-- A generation that has just been built. -/
def new (timeoutSecs : ℕ) : Generation := ⟨.new timeoutSecs, .serving⟩

/-- One step. -/
def step (g : Generation) : GenerationAction → Option Generation
  | .runtime a =>
    if enabled g.phase a then (g.rt.step a).map fun rt => { g with rt } else none
  | .beginReload => if g.phase = .serving then some { g with phase := .stoppingListeners } else none
  | .listenersStopped =>
    if g.phase = .stoppingListeners ∧
        ∀ i < g.rt.numCalls, (g.rt.calls i).listener → callEnded (g.rt.calls i).pc then
      some { g with phase := .stoppingGc }
    else none
  | .gcStopped =>
    if g.phase = .stoppingGc ∧ ∀ c < g.rt.numGcs, gcEnded (g.rt.gcs c) then
      (g.rt.step .shutdown).map fun rt => ⟨rt, .stoppingRuntime g.rt.numShutdowns⟩
    else none
  | .runtimeStopped =>
    match g.phase with
    | .stoppingRuntime d =>
      match g.rt.shutdowns d with
      | .returned _ => some { g with phase := .returned }
      | _ => none
    | _ => none

/-- The condition on a step that no call is aborted between handing its creation to
`tokio::spawn` and publishing the result. -/
def Harmless (g : Generation) (a : GenerationAction) : Prop :=
  ∀ i, a = .runtime (.abort i) → (g.rt.calls i).pc.creation? = none

variable {g g' : Generation}

/-- A step of the generation is no step or one step of its runtime, and an abort only where it is
one. -/
theorem rt_of_step {a : GenerationAction} (hs : g.step a = some g') :
    g'.rt = g.rt ∨
      ∃ b, (∀ i, b = .abort i → a = .runtime (.abort i)) ∧ g.rt.step b = some g'.rt := by
  cases a with
  | runtime b =>
    simp only [step] at hs
    split_ifs at hs
    obtain ⟨rt, hrt, rfl⟩ := Option.map_eq_some_iff.mp hs
    exact .inr ⟨b, fun i hi => by rw [hi], hrt⟩
  | beginReload | listenersStopped =>
    simp only [step] at hs
    split_ifs at hs
    cases hs
    exact .inl rfl
  | gcStopped =>
    simp only [step] at hs
    split_ifs at hs
    obtain ⟨rt, hrt, rfl⟩ := Option.map_eq_some_iff.mp hs
    exact .inr ⟨.shutdown, fun i hi => (by cases hi), hrt⟩
  | runtimeStopped =>
    simp only [step] at hs
    split at hs
    · split at hs
      · cases hs
        exact .inl rfl
      · cases hs
    · cases hs

/-- The runs of a generation project to runs of its runtime. -/
theorem steps_rt {timeoutSecs : ℕ} (h : Steps step Harmless (new timeoutSecs) g) :
    Steps UdpRuntime.step UdpRuntime.Harmless (.new timeoutSecs) g.rt := by
  refine h.map Generation.rt fun t a u ha hs => ?_
  rcases rt_of_step hs with heq | ⟨b, hb, hstep⟩
  · exact .inl heq
  · exact .inr ⟨b, fun i hi => ha i (hb i hi), hstep⟩

theorem reachable_rt {timeoutSecs : ℕ} {P : Generation → GenerationAction → Prop}
    (h : Steps step P (new timeoutSecs) g) :
    Reachable UdpRuntime.step (.new timeoutSecs) g.rt := by
  refine h.map Generation.rt fun t a u _ hs => ?_
  rcases rt_of_step hs with heq | ⟨b, -, hstep⟩
  · exact .inl heq
  · exact .inr ⟨b, trivial, hstep⟩

/-- Once `shutdown_for_reload` is past the runtime, the session map has been cleared. -/
def Cleared (g : Generation) : Prop :=
  g.phase = .returned → g.rt.drained = true

theorem Cleared.step {a : GenerationAction} (h : Cleared g) (howner : g.rt.OwnerInv)
    (hs : g.step a = some g') : Cleared g' := by
  cases a with
  | runtime b =>
    simp only [Generation.step] at hs
    split_ifs at hs
    obtain ⟨rt, hrt, rfl⟩ := Option.map_eq_some_iff.mp hs
    intro hphase
    have hone : Steps UdpRuntime.step (fun _ _ => True) g.rt rt := .head trivial hrt .refl
    exact UdpRuntime.drained_of_steps hone (h hphase)
  | beginReload | listenersStopped =>
    simp only [Generation.step] at hs
    split_ifs at hs
    cases hs
    intro hphase
    cases hphase
  | gcStopped =>
    simp only [Generation.step] at hs
    split_ifs at hs
    obtain ⟨rt, hrt, rfl⟩ := Option.map_eq_some_iff.mp hs
    intro hphase
    cases hphase
  | runtimeStopped =>
    simp only [Generation.step] at hs
    split at hs
    · rename_i d hd
      split at hs
      · rename_i ok hok
        cases hs
        intro _
        exact howner.pastDrain_drained d (.inr ⟨ok, hok⟩)
      · cases hs
    · cases hs

theorem cleared_of_steps {timeoutSecs : ℕ} (h : Steps step Harmless (new timeoutSecs) g) :
    Cleared g := by
  have hboth : g.rt.OwnerInv ∧ Cleared g := by
    refine h.invariant (I := fun g => g.rt.OwnerInv ∧ Cleared g)
      ⟨UdpRuntime.ownerInv_new timeoutSecs, fun hphase => by cases hphase⟩ ?_
    rintro t a u ⟨howner, hcleared⟩ - hs
    refine ⟨?_, hcleared.step howner hs⟩
    rcases rt_of_step hs with heq | ⟨b, -, hb⟩
    · exact heq ▸ howner
    · exact howner.step hb
  exact hboth.2

/-- **No live session in a retired generation.** Take a run in which no call is aborted between
handing its creation to `tokio::spawn` and publishing the result. When `shutdown_for_reload` has
returned, no creation runs and every call whose creation has ended has published it, every
session ever created is cancelled. -/
theorem sessions_cancelled_of_retired {timeoutSecs : ℕ}
    (h : Steps step Harmless (new timeoutSecs) g) (hreturned : g.phase = .returned)
    (hended : ∀ c, ¬ (g.rt.creations c).task.Running)
    (hpublished : ∀ i c, (g.rt.calls i).pc.creation? = some c →
      (g.rt.creations c).task.Running) :
    ∀ s < g.rt.numSessions, (g.rt.heap s).cancelled = true := by
  obtain ⟨howner, -, -, htracked⟩ := UdpRuntime.invariants_of_steps (steps_rt h)
  have hdrained := cleared_of_steps h hreturned
  intro s hs
  by_contra hlive
  rcases htracked s hs (by simpa using hlive) with hready | ⟨i, c, hi, -⟩
  · rw [howner.drained_entry hdrained] at hready
    cases hready
  · exact hended c (hpublished i c hi)

/-- No creation runs and no call is between the spawn of its creation and its publication, as far
as calls and creations have been made. -/
def Quiet (g : Generation) : Prop :=
  (∀ c < g.rt.numCreations, ¬ (g.rt.creations c).task.Running) ∧
    ∀ i < g.rt.numCalls, (g.rt.calls i).pc.creation? = none

instance : DecidablePred Quiet := fun _ => inferInstanceAs (Decidable (_ ∧ _))

theorem Quiet.not_running {timeoutSecs : ℕ} {P : Generation → GenerationAction → Prop}
    (h : Steps step P (new timeoutSecs) g) (hq : Quiet g) (c : ℕ) :
    ¬ (g.rt.creations c).task.Running := by
  rcases lt_or_ge c g.rt.numCreations with hlt | hge
  · exact hq.1 c hlt
  · rw [UdpRuntime.creation_unused_of_steps (reachable_rt h) c hge]
    simp [CreateTask.Running]

theorem Quiet.creation?_eq_none {timeoutSecs : ℕ} {P : Generation → GenerationAction → Prop}
    (h : Steps step P (new timeoutSecs) g) (hq : Quiet g) (i : ℕ) :
    (g.rt.calls i).pc.creation? = none := by
  rcases lt_or_ge i g.rt.numCalls with hlt | hge
  · exact hq.2 i hlt
  · rw [(UdpRuntime.ownerInv_of_steps (reachable_rt h)).fresh_call i hge]
    rfl

/-- A packet handler creates a session, then the generation is retired. -/
def createAndRetire (spec : UdpSessionSpec) : List GenerationAction :=
  [.runtime (.call spec false), .runtime (.advance 0), .runtime (.advance 0),
    .runtime (.connect 0 (.connected .socks5 0)), .runtime (.recvStart 0), .runtime (.ready 0),
    .runtime (.advance 0), .runtime (.advance 0), .beginReload, .listenersStopped, .gcStopped,
    .runtime (.shutdownDrain 0), .runtime (.shutdownReap 0 true),
    .runtime (.shutdownReturn 0), .runtimeStopped]

theorem sessions_cancelled_createAndRetire : ∃ g, Steps step Harmless (new 60) g ∧
    g.phase = .returned ∧ 0 < g.rt.numSessions ∧ (g.rt.heap 0).cancelled = true := by
  obtain ⟨g, hg, hphase, hnum, hq⟩ : ∃ g, Steps step Harmless (new 60) g ∧
      (g.phase = .returned ∧ 0 < g.rt.numSessions ∧ Quiet g) :=
    exists_steps_of_run (l := createAndRetire default) (by simp [createAndRetire, Harmless])
      (by decide +kernel)
  refine ⟨g, hg, hphase, hnum, ?_⟩
  refine sessions_cancelled_of_retired hg hphase (hq.not_running hg) (fun i c hi => ?_) 0 hnum
  rw [hq.creation?_eq_none hg] at hi
  cases hi

/-- A listener is aborted while it waits for the creation it has spawned. The creation outlives
`shutdown_for_reload`: its session is registered nowhere and is never cancelled. -/
def abortWhileJoining (spec : UdpSessionSpec) : List GenerationAction :=
  [.runtime (.call spec true), .runtime (.advance 0), .runtime (.advance 0), .beginReload,
    .runtime (.abort 0), .listenersStopped, .gcStopped, .runtime (.shutdownDrain 0),
    .runtime (.shutdownReturn 0), .runtimeStopped,
    .runtime (.connect 0 (.connected .socks5 0)), .runtime (.recvStart 0), .runtime (.ready 0)]

theorem abort_leaves_live_session : ∃ g, Reachable step (new 60) g ∧ g.phase = .returned ∧
    (∀ c, ¬ (g.rt.creations c).task.Running) ∧ (∀ i, (g.rt.calls i).pc.creation? = none) ∧
    0 < g.rt.numSessions ∧ (g.rt.heap 0).cancelled = false := by
  obtain ⟨g, hg, hphase, hnum, hlive, hq⟩ : ∃ g, Reachable step (new 60) g ∧
      (g.phase = .returned ∧ 0 < g.rt.numSessions ∧ (g.rt.heap 0).cancelled = false ∧ Quiet g) :=
    exists_steps_of_run (l := abortWhileJoining default) (by simp) (by decide +kernel)
  exact ⟨g, hg, hphase, hq.not_running hg, hq.creation?_eq_none hg, hnum, hlive⟩

end Generation

end XtpRs.Udp
