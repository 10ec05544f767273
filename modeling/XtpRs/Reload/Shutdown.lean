import XtpRs.Reload.Generations

/-!
# Shutting a generation down

`TaskGuard` of `src/util.rs` keeps the handles of the tasks that it spawns. `TaskGuard::shutdown`
sets the token, takes the handles and awaits them one by one; a task that has not ended at the
deadline is aborted and awaited again. `shutdown_for_reload` and `shutdown_for_exit` of
`src/state.rs` do this with the guards of a generation, one after another.

Meanwhile the tasks go on, and those that accept TCP connections spawn more tasks, which go into the
guard `tcp_handlers`. A handle that is not in the list when the handles are taken is never awaited,
so it matters in which order the guards come.

A step is one access to a list of handles, one await, or the end of a task. The deadline is not
modelled: a task may be aborted whenever it is awaited. The shutdown of the UDP runtime, which
stands between two of the guards, is in `XtpRs.Udp.Retire`.

## Main definitions

* `TaskGuard`, `TaskGuard.spawn`: the tasks of a guard.
* `Shutdown`, `Shutdown.step`: a run of one of the two functions among the tasks.
* `Shutdown.Inv`: no task is lost.

## Main results

* `Shutdown.Inv.step`: every step keeps the invariant.
* `Shutdown.returned_ended`: when the function returns, every task of its guards has ended and no
  connection is accepted any more, and the other guards are untouched.
-/

namespace XtpRs.Reload

open Lib

/-! ### The tasks of a guard -/

/-- A task: running, told to abort, which it does at its next await, or ended. -/
inductive TaskState
  | running
  | aborting
  | ended
  deriving DecidableEq, Repr

/-- `TaskGuard`, with the tasks that it has spawned, numbered in order. -/
structure TaskGuard where
  cancelled : Bool
  handles : List ℕ
  tasks : ℕ → TaskState
  numTasks : ℕ

namespace TaskGuard

/-- A guard with `n` tasks. -/
def new (n : ℕ) : TaskGuard where
  cancelled := false
  handles := List.range n
  tasks _ := .running
  numTasks := n

variable (tg : TaskGuard)

/-- `TaskGuard::spawn`: the handles of ended tasks are dropped. -/
def spawn : TaskGuard :=
  { tg with
    handles := (tg.handles.filter fun t => tg.tasks t ≠ .ended) ++ [tg.numTasks]
    tasks := Function.update tg.tasks tg.numTasks .running
    numTasks := tg.numTasks + 1 }

/-- A task ends. -/
def endTask (t : ℕ) : TaskGuard :=
  { tg with tasks := Function.update tg.tasks t .ended }

/-- `JoinHandle::abort`: it has no effect on a task that has ended. -/
def abort (t : ℕ) : TaskGuard :=
  { tg with
    tasks := Function.update tg.tasks t
      (if tg.tasks t = .ended then .ended else .aborting) }

/-- Every task has ended. -/
def AllEnded : Prop :=
  ∀ t < tg.numTasks, tg.tasks t = .ended

end TaskGuard

/-! ### The shutdown -/

/-- Where the shutdown is: about to go on with the next guard, about to take the handles of a guard,
about to await the next of the handles, or awaiting a task that it has aborted. -/
inductive ShutdownPhase
  | next (rest : List Guard)
  | draining (g : Guard) (rest : List Guard)
  | joining (g : Guard) (handles : List ℕ) (rest : List Guard)
  | awaiting (g : Guard) (t : ℕ) (handles : List ℕ) (rest : List Guard)
  | returned
  deriving DecidableEq

namespace ShutdownPhase

/-- The guards that are not done yet. -/
def remaining : ShutdownPhase → List Guard
  | next rest => rest
  | draining g rest | joining g _ rest | awaiting g _ _ rest => g :: rest
  | returned => []

/-- The handles of a guard that have been taken and not awaited. -/
def taken (g : Guard) : ShutdownPhase → List ℕ
  | joining g' handles _ => if g' = g then handles else []
  | awaiting g' t handles _ => if g' = g then t :: handles else []
  | _ => []

/-- A task has been aborted and is awaited. -/
def isAwaiting : ShutdownPhase → Bool
  | awaiting _ _ _ _ => true
  | _ => false

/-- The handles of the guard have been taken. -/
def hasTaken (g : Guard) : ShutdownPhase → Prop
  | joining g' _ _ | awaiting g' _ _ _ => g' = g
  | _ => False

end ShutdownPhase

/-- The guards of a generation while it is shut down. `ok` is what the guards contribute to the
result; `finished` and `aborted` are a record of the guards that are done, and of the tasks that
have been aborted. -/
structure Shutdown where
  guards : Guard → TaskGuard
  phase : ShutdownPhase
  ok : Bool
  finished : List Guard
  aborted : List (Guard × ℕ)

/-- What happens: a task accepts a connection, a task ends, or the shutdown goes on. `abort` is the
case that the deadline has passed. -/
inductive ShutdownAction
  | accept (g : Guard) (t : ℕ)
  | taskEnds (g : Guard) (t : ℕ)
  | cancel
  | drain
  | join
  | abort
  | awaited

/-- The tasks of the guard accept TCP connections. -/
def Guard.accepts : Guard → Bool
  | .tcpListeners | .portForwards => true
  | _ => false

namespace Shutdown

/-- The shutdown of the guards in `order` has not begun; `tasks` is how many tasks they have. -/
def init (order : List Guard) (tasks : Guard → ℕ) : Shutdown where
  guards g := .new (tasks g)
  phase := .next order
  ok := true
  finished := []
  aborted := []

/-- A change of one guard. -/
def modify (st : Shutdown) (g : Guard) (f : TaskGuard → TaskGuard) : Shutdown :=
  { st with guards := Function.update st.guards g (f (st.guards g)) }

/-- One step. -/
def step (st : Shutdown) : ShutdownAction → Option Shutdown
  | .accept g t =>
    if g.accepts = true ∧ t < (st.guards g).numTasks ∧ (st.guards g).tasks t ≠ .ended then
      some (st.modify .tcpHandlers TaskGuard.spawn)
    else none
  | .taskEnds g t =>
    if t < (st.guards g).numTasks then some (st.modify g (TaskGuard.endTask · t)) else none
  | .cancel =>
    match st.phase with
    | .next [] => some { st with phase := .returned }
    | .next (g :: rest) =>
      some { st.modify g ({ · with cancelled := true }) with phase := .draining g rest }
    | _ => none
  | .drain =>
    match st.phase with
    | .draining g rest =>
      some { st.modify g ({ · with handles := [] }) with
        phase := .joining g (st.guards g).handles rest }
    | _ => none
  | .join =>
    match st.phase with
    | .joining g [] rest => some { st with phase := .next rest, finished := st.finished ++ [g] }
    | .joining g (t :: handles) rest =>
      if (st.guards g).tasks t = .ended then some { st with phase := .joining g handles rest }
      else none
    | _ => none
  | .abort =>
    match st.phase with
    | .joining g (t :: handles) rest =>
      some { st.modify g (TaskGuard.abort · t) with
        phase := .awaiting g t handles rest
        aborted := st.aborted ++ [(g, t)] }
    | _ => none
  | .awaited =>
    match st.phase with
    | .awaiting g t handles rest =>
      if (st.guards g).tasks t = .ended then
        some { st with phase := .joining g handles rest, ok := false }
      else none
    | _ => none

/-! ### No task is lost -/

/-- The guards that accept connections come before the one of the handlers. -/
def AcceptsFirst (order : List Guard) : Prop :=
  ∀ pre post, order = pre ++ .tcpHandlers :: post → ∀ g : Guard, g.accepts = true → g ∈ pre

theorem acceptsFirst_shutdownForReload : AcceptsFirst shutdownForReload := by
  intro pre post h
  have hmem : Guard.tcpHandlers ∈ shutdownForReload := by
    rw [h]
    exact List.mem_append_right _ List.mem_cons_self
  exact absurd hmem (by decide)

theorem acceptsFirst_shutdownForExit : AcceptsFirst shutdownForExit := by
  intro pre post h g hg
  obtain ⟨rfl, -, -⟩ :=
    (List.append_cons_inj_of_notMem (by decide : Guard.tcpHandlers ∉ shutdownForReload)
      List.not_mem_nil).mp h
  cases g with
  | tcpListeners | portForwards => decide
  | udpListeners | upstreamScores | tcpHandlers | healthCheck | udpGc | scoreDebugPrinter
  | relativeScore => cases hg

/-- The shutdown has gone through `finished`, whose tasks have all ended; it still has a handle for
every other task that has not. -/
structure Inv (order : List Guard) (st : Shutdown) : Prop where
  split : order = st.finished ++ st.phase.remaining
  ended : ∀ g ∈ st.finished, (st.guards g).cancelled = true ∧ (st.guards g).AllEnded
  held : ∀ g, ∀ t < (st.guards g).numTasks, (st.guards g).tasks t ≠ .ended →
    t ∈ (st.guards g).handles ∨ t ∈ st.phase.taken g
  drained : ∀ g, st.phase.hasTaken g →
    (st.guards g).cancelled = true ∧ (st.guards g).handles = []
  cancelled : ∀ g rest, st.phase = .draining g rest → (st.guards g).cancelled = true
  untouched : ∀ g ∉ order, (st.guards g).cancelled = false ∧ ∀ t, (g, t) ∉ st.aborted
  result : st.aborted = [] ↔ st.ok = true ∧ st.phase.isAwaiting = false

variable {order : List Guard} {st st' : Shutdown} {g : Guard} {a : ShutdownAction}

theorem guards_modify (f : TaskGuard → TaskGuard) (g' : Guard) :
    (st.modify g f).guards g' = if g' = g then f (st.guards g) else st.guards g' :=
  Function.update_apply _ _ _ _

namespace Inv

theorem init (order : List Guard) (tasks : Guard → ℕ) :
    Inv order (Shutdown.init order tasks) where
  split := rfl
  ended g hg := by cases hg
  held g t ht _ := .inl (List.mem_range.mpr ht)
  drained g hg := hg.elim
  cancelled g rest h := by cases h
  untouched g _ := ⟨rfl, fun t ht => by cases ht⟩
  result := ⟨fun _ => ⟨rfl, rfl⟩, fun _ => rfl⟩

/-- Once it is the turn of the handlers, no task accepts connections any more. -/
theorem not_accepts (h : Inv order st) (horder : AcceptsFirst order)
    (hturn : .tcpHandlers ∈ st.finished ∨ ∃ rest, st.phase.remaining = .tcpHandlers :: rest)
    (hg : g.accepts = true) : (st.guards g).AllEnded := by
  refine (h.ended g ?_).2
  obtain hmem | ⟨rest, hrest⟩ := hturn
  · obtain ⟨pre, post, hsplit⟩ := List.append_of_mem hmem
    have hpre : g ∈ pre := by
      refine horder pre (post ++ st.phase.remaining) ?_ g hg
      rw [h.split, hsplit, List.append_assoc, List.cons_append]
    rw [hsplit]
    exact List.mem_append_left _ hpre
  · exact horder st.finished rest (h.split.trans (by rw [hrest])) g hg

/-- A change of the tasks of one guard. -/
theorem modify (h : Inv order st) {f : TaskGuard → TaskGuard}
    (hcancelled : (f (st.guards g)).cancelled = (st.guards g).cancelled)
    (hended : g ∈ st.finished → (f (st.guards g)).AllEnded)
    (hheld : ∀ t < (f (st.guards g)).numTasks, (f (st.guards g)).tasks t ≠ .ended →
      t ∈ (f (st.guards g)).handles ∨ t ∈ st.phase.taken g)
    (hdrained : st.phase.hasTaken g → (f (st.guards g)).handles = []) :
    Inv order (st.modify g f) where
  split := h.split
  ended g' hg' := by
    rw [guards_modify]
    split_ifs with heq
    · subst heq
      exact ⟨hcancelled.trans (h.ended g' hg').1, hended hg'⟩
    · exact h.ended g' hg'
  held g' := by
    rw [guards_modify]
    split_ifs with heq
    · subst heq
      exact hheld
    · exact h.held g'
  drained g' hg' := by
    rw [guards_modify]
    split_ifs with heq
    · subst heq
      exact ⟨hcancelled.trans (h.drained g' hg').1, hdrained hg'⟩
    · exact h.drained g' hg'
  cancelled g' rest hphase := by
    rw [guards_modify]
    split_ifs with heq
    · subst heq
      exact hcancelled.trans (h.cancelled g' rest hphase)
    · exact h.cancelled g' rest hphase
  untouched g' hg' := by
    refine ⟨?_, (h.untouched g' hg').2⟩
    rw [guards_modify]
    split_ifs with heq
    · subst heq
      exact hcancelled.trans (h.untouched g' hg').1
    · exact (h.untouched g' hg').1
  result := h.result

/-- A connection is accepted: the handle of the new task is kept. -/
theorem accept (h : Inv order st) (horder : AcceptsFirst order) {t : ℕ} (hg : g.accepts = true)
    (ht : t < (st.guards g).numTasks) (hrun : (st.guards g).tasks t ≠ .ended) :
    Inv order (st.modify .tcpHandlers TaskGuard.spawn) := by
  have hturn (hlast : .tcpHandlers ∈ st.finished ∨
      ∃ rest, st.phase.remaining = .tcpHandlers :: rest) : False :=
    hrun (h.not_accepts horder hlast hg t ht)
  refine h.modify rfl (fun hmem => (hturn (.inl hmem)).elim) (fun u hu hnot => ?_)
    fun htaken => (hturn (.inr ?_)).elim
  · simp only [TaskGuard.spawn] at hu hnot ⊢
    rcases eq_or_ne u (st.guards .tcpHandlers).numTasks with rfl | hne
    · exact .inl (List.mem_append_right _ List.mem_cons_self)
    · rw [Function.update_of_ne hne] at hnot
      refine (h.held _ u (by omega) hnot).imp_left fun hold => ?_
      exact List.mem_append_left _ (List.mem_filter.mpr ⟨hold, by simpa using hnot⟩)
  · cases hphase : st.phase with
    | joining g' handles rest | awaiting g' u handles rest =>
      rw [hphase] at htaken
      obtain rfl : g' = .tcpHandlers := htaken
      exact ⟨rest, rfl⟩
    | next rest | draining g' rest | returned =>
      rw [hphase] at htaken
      exact htaken.elim

/-- A task of any guard ends. -/
theorem endTask (h : Inv order st) (g : Guard) (t : ℕ) :
    Inv order (st.modify g (TaskGuard.endTask · t)) := by
  refine h.modify rfl (fun hmem u hu => ?_) (fun u hu hnot => ?_)
    fun htaken => (h.drained g htaken).2
  · simp only [TaskGuard.endTask, Function.update_apply]
    split_ifs
    · rfl
    · exact (h.ended g hmem).2 u hu
  · simp only [TaskGuard.endTask, Function.update_apply] at hnot
    split_ifs at hnot
    · exact absurd rfl hnot
    · exact h.held g u hu hnot

theorem mem_order (h : Inv order st) {rest : List Guard} (hphase : st.phase.remaining = g :: rest) :
    g ∈ order := by
  rw [h.split, hphase]
  exact List.mem_append_right _ List.mem_cons_self

/-- The token of the next guard is set. -/
theorem cancel (h : Inv order st) {rest : List Guard} (hphase : st.phase = .next (g :: rest)) :
    Inv order { st.modify g ({ · with cancelled := true }) with phase := .draining g rest } where
  split := h.split.trans (by rw [hphase]; rfl)
  ended g' hg' := by
    dsimp only
    rw [guards_modify]
    split_ifs with heq
    · subst heq
      exact ⟨rfl, (h.ended g' hg').2⟩
    · exact h.ended g' hg'
  held g' t ht hnot := by
    have hheld := h.held g' t
    rw [hphase] at hheld
    dsimp only at ht hnot ⊢
    rw [guards_modify] at ht hnot ⊢
    split_ifs at ht hnot ⊢ with heq
    · subst heq
      exact hheld ht hnot
    · exact hheld ht hnot
  drained g' hg' := hg'.elim
  cancelled g' rest' hphase' := by
    cases hphase'
    dsimp only
    rw [guards_modify, if_pos rfl]
  untouched g' hg' := by
    have hne : g' ≠ g := by
      rintro rfl
      exact hg' (h.mem_order (by rw [hphase]; rfl))
    refine ⟨?_, (h.untouched g' hg').2⟩
    dsimp only
    rw [guards_modify, if_neg hne]
    exact (h.untouched g' hg').1
  result := h.result.trans (by rw [hphase]; rfl)

/-- The handles of a guard are taken. -/
theorem drain (h : Inv order st) {rest : List Guard} (hphase : st.phase = .draining g rest) :
    Inv order { st.modify g ({ · with handles := [] }) with
      phase := .joining g (st.guards g).handles rest } where
  split := h.split.trans (by rw [hphase]; rfl)
  ended g' hg' := by
    dsimp only
    rw [guards_modify]
    split_ifs with heq
    · subst heq
      exact h.ended g' hg'
    · exact h.ended g' hg'
  held g' t ht hnot := by
    have hheld := h.held g' t
    rw [hphase] at hheld
    dsimp only at ht hnot ⊢
    rw [guards_modify] at ht hnot ⊢
    split_ifs at ht hnot ⊢ with heq
    · subst heq
      obtain hold | htaken := hheld ht hnot
      · exact .inr (by simpa [ShutdownPhase.taken] using hold)
      · cases htaken
    · obtain hold | htaken := hheld ht hnot
      · exact .inl hold
      · cases htaken
  drained g' hg' := by
    obtain rfl : g = g' := hg'
    dsimp only
    rw [guards_modify, if_pos rfl]
    exact ⟨h.cancelled g rest hphase, rfl⟩
  cancelled g' rest' hphase' := by cases hphase'
  untouched g' hg' := by
    refine ⟨?_, (h.untouched g' hg').2⟩
    dsimp only
    rw [guards_modify]
    split_ifs with heq
    · subst heq
      exact (h.untouched g' hg').1
    · exact (h.untouched g' hg').1
  result := h.result.trans (by rw [hphase]; rfl)

/-- All handles of a guard have been awaited: none of its tasks is left. -/
theorem done (h : Inv order st) {rest : List Guard} (hphase : st.phase = .joining g [] rest) :
    Inv order { st with phase := .next rest, finished := st.finished ++ [g] } where
  split := by
    rw [h.split, hphase]
    exact List.append_cons _ _ _
  ended g' hg' := by
    obtain hg' | hg' := List.mem_append.mp hg'
    · exact h.ended g' hg'
    · obtain rfl := List.mem_singleton.mp hg'
      obtain ⟨hcancelled, hhandles⟩ := h.drained g' (by rw [hphase]; rfl)
      refine ⟨hcancelled, fun t ht => ?_⟩
      by_contra hnot
      obtain hold | htaken := h.held g' t ht hnot
      · rw [hhandles] at hold
        cases hold
      · rw [hphase] at htaken
        simp [ShutdownPhase.taken] at htaken
  held g' t ht hnot := by
    refine (h.held g' t ht hnot).imp_right fun htaken => ?_
    rw [hphase] at htaken
    simp [ShutdownPhase.taken] at htaken
  drained g' hg' := hg'.elim
  cancelled g' rest' hphase' := by cases hphase'
  untouched := h.untouched
  result := h.result.trans (by rw [hphase]; rfl)

/-- There is no guard left. -/
theorem finish (h : Inv order st) (hphase : st.phase = .next []) :
    Inv order { st with phase := .returned } where
  split := h.split.trans (by rw [hphase]; rfl)
  ended := h.ended
  held g' t ht hnot := by
    refine (h.held g' t ht hnot).imp_right fun htaken => ?_
    rw [hphase] at htaken
    cases htaken
  drained g' hg' := hg'.elim
  cancelled g' rest' hphase' := by cases hphase'
  untouched := h.untouched
  result := h.result.trans (by rw [hphase]; rfl)

/-- The next handle has been awaited, in either way. -/
theorem awaitNext (h : Inv order st) {t : ℕ} {handles : List ℕ} {rest : List Guard} {ok : Bool}
    (hphase : st.phase = .joining g (t :: handles) rest ∧ ok = st.ok ∨
      st.phase = .awaiting g t handles rest ∧ ok = false)
    (hended : (st.guards g).tasks t = .ended) :
    Inv order { st with phase := .joining g handles rest, ok } where
  split := by
    rw [h.split]
    obtain ⟨hphase, -⟩ | ⟨hphase, -⟩ := hphase <;> rw [hphase] <;> rfl
  ended := h.ended
  held g' u hu hnot := by
    refine (h.held g' u hu hnot).imp_right fun htaken => ?_
    have htaken' : u ∈ if g = g' then t :: handles else [] := by
      obtain ⟨hphase, -⟩ | ⟨hphase, -⟩ := hphase <;> rwa [hphase] at htaken
    simp only [ShutdownPhase.taken]
    split_ifs at htaken' ⊢ with heq
    · subst heq
      obtain rfl | hmem := List.mem_cons.mp htaken'
      · exact absurd hended hnot
      · exact hmem
    · cases htaken'
  drained g' hg' := by
    refine h.drained g' ?_
    obtain ⟨hphase, -⟩ | ⟨hphase, -⟩ := hphase <;> rw [hphase] <;> exact hg'
  cancelled g' rest' hphase' := by cases hphase'
  untouched := h.untouched
  result := by
    refine h.result.trans ?_
    obtain ⟨hphase, rfl⟩ | ⟨hphase, rfl⟩ := hphase <;> simp [hphase, ShutdownPhase.isAwaiting]

/-- The deadline has passed: the next task is aborted. -/
theorem abort (h : Inv order st) {t : ℕ} {handles : List ℕ} {rest : List Guard}
    (hphase : st.phase = .joining g (t :: handles) rest) :
    Inv order { st.modify g (TaskGuard.abort · t) with
      phase := .awaiting g t handles rest
      aborted := st.aborted ++ [(g, t)] } := by
  have hmodify : Inv order (st.modify g (TaskGuard.abort · t)) := by
    refine h.modify rfl (fun hmem u hu => ?_) (fun u hu hnot => ?_)
      fun htaken => (h.drained g htaken).2
    · simp only [TaskGuard.abort, Function.update_apply]
      split_ifs with heq hend
      · rfl
      · subst heq
        exact absurd ((h.ended g hmem).2 u hu) hend
      · exact (h.ended g hmem).2 u hu
    · refine h.held g u hu fun hend => hnot ?_
      simp only [TaskGuard.abort, Function.update_apply]
      split_ifs with heq hend'
      · rfl
      · exact absurd (heq ▸ hend) hend'
      · exact hend
  have htaken (g' : Guard) : st.phase.taken g' =
      (ShutdownPhase.awaiting g t handles rest).taken g' := by
    rw [hphase]
    rfl
  refine ⟨h.split.trans (by rw [hphase]; rfl), hmodify.ended, fun g' u hu hnot => ?_,
    fun g' hg' => hmodify.drained g' ?_, fun g' rest' hphase' => (by cases hphase'),
    fun g' hg' => ⟨(hmodify.untouched g' hg').1, fun u hu => ?_⟩, ?_⟩
  · exact htaken g' ▸ hmodify.held g' u hu hnot
  · change st.phase.hasTaken g'
    rw [hphase]
    exact hg'
  · obtain hold | hnew := List.mem_append.mp hu
    · exact (h.untouched g' hg').2 u hold
    · obtain ⟨rfl, -⟩ := Prod.mk.inj (List.mem_singleton.mp hnew)
      exact hg' (h.mem_order (by rw [hphase]; rfl))
  · simp [ShutdownPhase.isAwaiting]

/-- **One step.** -/
theorem step (h : Inv order st) (horder : AcceptsFirst order) (hs : st.step a = some st') :
    Inv order st' := by
  cases a with
  | accept g t =>
    simp only [Shutdown.step, Option.ite_none_right_eq_some, Option.some.injEq] at hs
    obtain ⟨⟨hg, ht, hrun⟩, rfl⟩ := hs
    exact h.accept horder hg ht hrun
  | taskEnds g t =>
    simp only [Shutdown.step, Option.ite_none_right_eq_some, Option.some.injEq] at hs
    obtain ⟨-, rfl⟩ := hs
    exact h.endTask g t
  | cancel =>
    simp only [Shutdown.step] at hs
    split at hs
    · rename_i hphase
      cases hs
      exact h.finish hphase
    · rename_i g rest hphase
      cases hs
      exact h.cancel hphase
    · cases hs
  | drain =>
    simp only [Shutdown.step] at hs
    split at hs
    · rename_i g rest hphase
      cases hs
      exact h.drain hphase
    · cases hs
  | join =>
    simp only [Shutdown.step] at hs
    split at hs
    · rename_i g rest hphase
      cases hs
      exact h.done hphase
    · rename_i g t handles rest hphase
      simp only [Option.ite_none_right_eq_some, Option.some.injEq] at hs
      obtain ⟨hended, rfl⟩ := hs
      exact h.awaitNext (.inl ⟨hphase, rfl⟩) hended
    · cases hs
  | abort =>
    simp only [Shutdown.step] at hs
    split at hs
    · rename_i g t handles rest hphase
      cases hs
      exact h.abort hphase
    · cases hs
  | awaited =>
    simp only [Shutdown.step] at hs
    split at hs
    · rename_i g t handles rest hphase
      simp only [Option.ite_none_right_eq_some, Option.some.injEq] at hs
      obtain ⟨hended, rfl⟩ := hs
      exact h.awaitNext (.inr ⟨hphase, rfl⟩) hended
    · cases hs

end Inv

/-- A step that does not accept a connection starts no task. -/
theorem numTasks_of_step (hs : st.step a = some st') (ha : ∀ g t, a ≠ .accept g t) (g : Guard) :
    (st'.guards g).numTasks = (st.guards g).numTasks := by
  have hmodify (g' : Guard) (f : TaskGuard → TaskGuard)
      (hf : (f (st.guards g')).numTasks = (st.guards g').numTasks) :
      ((st.modify g' f).guards g).numTasks = (st.guards g).numTasks := by
    rw [guards_modify]
    split_ifs with heq
    · rw [hf, heq]
    · rfl
  cases a with
  | accept g' t => exact absurd rfl (ha g' t)
  | taskEnds g' t =>
    simp only [step, Option.ite_none_right_eq_some, Option.some.injEq] at hs
    obtain ⟨-, rfl⟩ := hs
    exact hmodify g' _ rfl
  | cancel =>
    simp only [step] at hs
    split at hs
    · cases hs
      rfl
    · rename_i g' rest hphase
      cases hs
      exact hmodify g' ({ · with cancelled := true }) rfl
    · cases hs
  | drain =>
    simp only [step] at hs
    split at hs
    · rename_i g' rest hphase
      cases hs
      exact hmodify g' ({ · with handles := [] }) rfl
    · cases hs
  | abort =>
    simp only [step] at hs
    split at hs
    · rename_i g' t handles rest hphase
      cases hs
      exact hmodify g' (TaskGuard.abort · t) rfl
    · cases hs
  | join =>
    simp only [step] at hs
    split at hs
    · cases hs
      rfl
    · simp only [Option.ite_none_right_eq_some, Option.some.injEq] at hs
      obtain ⟨-, rfl⟩ := hs
      rfl
    · cases hs
  | awaited =>
    simp only [step] at hs
    split at hs
    · simp only [Option.ite_none_right_eq_some, Option.some.injEq] at hs
      obtain ⟨-, rfl⟩ := hs
      rfl
    · cases hs

/-- **The end of a generation.** Let a run of `shutdown_for_reload` or of `shutdown_for_exit`
return, whatever the tasks do meanwhile, and whichever of them are aborted at their deadlines. Then
the tokens of its guards are set and all tasks that these have ever spawned have ended, those of
connections accepted during the shutdown included. No task is spawned from then on. The tokens of
the other guards are not set and none of their tasks was aborted: a reload leaves the connections
alone. The result is `true` exactly if no task was aborted. -/
theorem returned_ended {tasks : Guard → ℕ}
    (horder : order = shutdownForReload ∨ order = shutdownForExit)
    (h : Reachable step (init order tasks) st) (hreturned : st.phase = .returned) :
    (∀ g ∈ order, (st.guards g).cancelled = true ∧ (st.guards g).AllEnded) ∧
    (∀ a st', st.step a = some st' → ∀ g, (st'.guards g).numTasks = (st.guards g).numTasks) ∧
    (∀ g ∉ order, (st.guards g).cancelled = false ∧ ∀ t, (g, t) ∉ st.aborted) ∧
    (st.ok = true ↔ st.aborted = []) := by
  have hfirst : AcceptsFirst order := by
    obtain rfl | rfl := horder
    · exact acceptsFirst_shutdownForReload
    · exact acceptsFirst_shutdownForExit
  have hinv : Inv order st :=
    h.invariant (.init order tasks) fun _ _ _ hinv _ hs => hinv.step hfirst hs
  have hended : ∀ g ∈ order, (st.guards g).cancelled = true ∧ (st.guards g).AllEnded := by
    intro g hg
    rw [hinv.split, hreturned] at hg
    exact hinv.ended g (by simpa [ShutdownPhase.remaining] using hg)
  refine ⟨hended, fun a st' hs => ?_, hinv.untouched, ?_⟩
  · refine numTasks_of_step hs fun g t ha => ?_
    subst ha
    simp only [step, Option.ite_none_right_eq_some] at hs
    obtain ⟨⟨hg, ht, hrun⟩, -⟩ := hs
    have hmem : g ∈ order := by
      have hlisteners : Guard.tcpListeners ∈ order ∧ Guard.portForwards ∈ order := by
        obtain rfl | rfl := horder <;> decide
      cases g with
      | tcpListeners => exact hlisteners.1
      | portForwards => exact hlisteners.2
      | udpListeners | upstreamScores | tcpHandlers | healthCheck | udpGc | scoreDebugPrinter
      | relativeScore => cases hg
    exact hrun ((hended g hmem).2 t ht)
  · rw [hinv.result, hreturned]
    simp [ShutdownPhase.isAwaiting]

/-- One accept loop, and nothing else. -/
def oneListener : Guard → ℕ
  | .tcpListeners => 1
  | _ => 0

/-- A connection is accepted when the accept loop has been told to stop; its task does not end in
time. -/
def lateConnection : List ShutdownAction :=
  [.cancel, .accept .tcpListeners 0, .drain, .taskEnds .tcpListeners 0, .join, .join,
    .cancel, .drain, .join, .cancel, .drain, .join, .cancel, .drain, .join, .cancel, .drain, .join,
    .cancel, .drain, .join, .cancel, .drain, .abort, .taskEnds .tcpHandlers 0, .awaited, .join,
    .cancel]

theorem returned_ended_lateConnection : ∃ st,
    Reachable step (init shutdownForExit oneListener) st ∧
    (st.guards .tcpHandlers).numTasks = 1 ∧ (st.guards .tcpHandlers).AllEnded ∧ st.ok = false := by
  obtain ⟨st, hst, hphase, hnum, haborted⟩ : ∃ st,
      Reachable step (init shutdownForExit oneListener) st ∧ st.phase = .returned ∧
      (st.guards .tcpHandlers).numTasks = 1 ∧ st.aborted = [(.tcpHandlers, 0)] :=
    exists_steps_of_run (l := lateConnection) (fun _ _ _ => trivial) (by decide +kernel)
  obtain ⟨hended, -, -, hok⟩ := returned_ended (.inr rfl) hst hphase
  refine ⟨st, hst, hnum, (hended _ (by decide)).2, ?_⟩
  rw [Bool.eq_false_iff, ne_eq, hok, haborted]
  simp

end Shutdown

end XtpRs.Reload
