import XtpRs.Lib.Run
import XtpRs.Scripts.RouteFiles

/-!
# Updating the files of Chinese networks

`update-chnroute.sh` runs from cron. `update_china_ips` and then `update_china_ip6s` download a
text, filter it, write the set to a temporary file beside the target, with the number of the process
in its name, and rename it. A failing command ends the update of its family; the other one is made
all the same. Several runs may overlap, each may be killed at any point, also in the middle of a
write, and the setup may read the files between any two steps.

The prints are in a group whose status is not looked at, as is that of the pipeline of the filter
for IPv4. If one of these commands fails, because it is killed or the disk is full, the update goes
on with the part that it has put out, and the file is renamed without its end (`target_torn`). If
the temporary file cannot be opened nothing is printed, and what another run with the same number
has left there is renamed. The files are complete as long as none of this happens.

The files of a run in its own directory, which no other program touches, are part of its state. What
the script prints and its exit status are left out.

## Main definitions

* `UpdateStage`, `Updater`: a run of the script.
* `RouteStore`, `RouteStore.step`: the files and the runs.

## Main results

* `RouteStore.target_complete`: what the setup finds.
-/

namespace XtpRs.Scripts

open Lib

/-- What the group of prints writes: a line, or what the filter has left. -/
inductive RoutePart
  | echo (line : Str)
  | body
  deriving DecidableEq, Repr

def RoutePart.text (f : Family) (filtered : Str) : RoutePart → Str
  | echo line => line ++ [0x0a]
  | body => routeBody f filtered

/-- The group of prints. -/
def routeParts (f : Family) : List RoutePart :=
  (routeHeader f).map .echo ++ [.body] ++ routeFooter.map .echo

/-- The commands of an update in their order, each with what has been found out so far: the
downloaded text, what the filter has left of it, and the parts still to be printed. -/
inductive UpdateStage
  | fetch
  | checkSource (src : Str)
  | filter (src : Str)
  | checkFiltered (src filtered : Str)
  | mkdir (src filtered : Str)
  | openTmp (src filtered : Str)
  | print (src filtered : Str) (parts : List RoutePart)
  | rename (src : Str)
  deriving DecidableEq, Repr

/-- A run of the script. -/
structure Updater where
  family : Family
  stage : UpdateStage
  deriving DecidableEq, Repr

/-- What becomes of a command. -/
structure UpdateOutcome where
  /-- What `fetch` downloads, if it succeeds. -/
  download : Option Str := none
  /-- The command succeeds. -/
  ok : Bool := true
  /-- What a command that fails has put out. -/
  part : Str := []
  deriving DecidableEq, Repr

/-- What a command puts out that should put out a text. -/
def UpdateOutcome.output (o : UpdateOutcome) (s : Str) : Str := if o.ok then s else o.part

/-- The files, the runs by their process numbers, and a record of what has been downloaded. -/
structure RouteStore where
  target : Family → Option Str
  tmp : Family → ℕ → Option Str
  updaters : ℕ → Option Updater
  downloads : Family → List Str

/-- What happens. -/
inductive UpdateAction
  | start (pid : ℕ)
  /-- The next command of a run. -/
  | exec (pid : ℕ) (o : UpdateOutcome)
  /-- A run is killed, with some bytes of its next print written. -/
  | kill (pid : ℕ) (written : ℕ)

namespace RouteStore

/-- No run has been started. -/
def init (target : Family → Option Str) : RouteStore where
  target := target
  tmp := fun _ _ => none
  updaters := fun _ => none
  downloads := fun _ => []

variable (st : RouteStore) (pid : ℕ)

def setUpdater (u : Option Updater) : RouteStore :=
  { st with updaters := Function.update st.updaters pid u }

def setTmp (f : Family) (text : Option Str) : RouteStore :=
  { st with tmp := Function.update st.tmp f (Function.update (st.tmp f) pid text) }

def setTarget (f : Family) (text : Str) : RouteStore :=
  { st with target := Function.update st.target f (some text) }

def recordDownload (f : Family) (src : Str) : RouteStore :=
  { st with downloads := Function.update st.downloads f (src :: st.downloads f) }

theorem tmp_setTmp_self (f : Family) (text : Option Str) :
    (st.setTmp pid f text).tmp f pid = text := by
  simp [setTmp]

theorem tmp_setTmp_of_ne (f g : Family) (text : Option Str) {other : ℕ} (h : other ≠ pid) :
    (st.setTmp pid f text).tmp g other = st.tmp g other := by
  by_cases hg : g = f
  · subst hg
    simp [setTmp, h]
  · simp [setTmp, hg]

theorem updaters_setUpdater_self (u : Option Updater) :
    (st.setUpdater pid u).updaters pid = u :=
  Function.update_self _ _ _

theorem downloads_recordDownload_self (f : Family) (src : Str) :
    (st.recordDownload f src).downloads f = src :: st.downloads f :=
  Function.update_self _ _ _

theorem downloads_subset_recordDownload (f g : Family) (src : Str) :
    st.downloads g ⊆ (st.recordDownload f src).downloads g := by
  by_cases hg : g = f
  · subst hg
    rw [downloads_recordDownload_self]
    exact List.subset_cons_self _ _
  · simp [recordDownload, hg]

/-- The update of a family has ended: the next family, or the end with its trap. -/
def returned (f : Family) : RouteStore :=
  match f with
  | .v4 => st.setUpdater pid (some ⟨.v6, .fetch⟩)
  | .v6 => ((st.setTmp pid .v4 none).setTmp pid .v6 none).setUpdater pid none

/-- The update goes on. -/
def goOn (f : Family) (stage : UpdateStage) : RouteStore :=
  st.setUpdater pid (some ⟨f, stage⟩)

/-- The next command of a run. -/
def exec (o : UpdateOutcome) (f : Family) : UpdateStage → RouteStore
  | .fetch =>
    match o.download with
    | some src => (st.recordDownload f src).goOn pid f (.checkSource src)
    | none => st.returned pid f
  | .checkSource src => if src.isEmpty then st.returned pid f else st.goOn pid f (.filter src)
  | .filter src =>
    let filtered := o.output (filterRoutes f src)
    match f with
    -- the status of a pipeline is not looked at
    | .v4 => st.goOn pid f (.checkFiltered src filtered)
    | .v6 =>
      if (ip6Filter (fileLines src)).status = 0 ∧ o.ok then st.goOn pid f (.mkdir src filtered)
      else st.returned pid f
  | .checkFiltered src filtered =>
    if filtered.isEmpty then st.returned pid f else st.goOn pid f (.mkdir src filtered)
  | .mkdir src filtered =>
    if o.ok then st.goOn pid f (.openTmp src filtered) else st.returned pid f
  | .openTmp src filtered =>
    if o.ok then
      (st.setTmp pid f (some [])).goOn pid f (.print src filtered (routeParts f))
    else st.goOn pid f (.rename src)
  | .print src filtered (part :: parts) =>
    -- a failing print does not end the group
    (st.setTmp pid f ((st.tmp f pid).map (· ++ o.output (part.text f filtered)))).goOn pid f
      (.print src filtered parts)
  | .print src _ [] => st.goOn pid f (.rename src)
  | .rename _ =>
    match st.tmp f pid with
    | some text =>
      if o.ok then ((st.setTarget f text).setTmp pid f none).returned pid f
      else st.returned pid f
    | none => st.returned pid f

/-- What a run that is killed has written of its next print. -/
def torn (written : ℕ) (u : Updater) : RouteStore :=
  match u.stage with
  | .print _ filtered (part :: _) =>
    st.setTmp pid u.family
      ((st.tmp u.family pid).map (· ++ (part.text u.family filtered).take written))
  | _ => st

def step (st : RouteStore) : UpdateAction → Option RouteStore
  | .start pid =>
    match st.updaters pid with
    | none => some (st.goOn pid .v4 .fetch)
    | some _ => none
  | .exec pid o =>
    (st.updaters pid).map fun u => st.exec pid o u.family u.stage
  | .kill pid written =>
    (st.updaters pid).map fun u => (st.torn pid written u).setUpdater pid none

/-- The script does not notice that a command with this outcome fails, and the failure matters: a
filter for IPv4, a print, or the opening of a temporary file that is there already. -/
def Unnoticed (st : RouteStore) (pid : ℕ) (o : UpdateOutcome) (u : Updater) : Prop :=
  o.ok = false ∧
    match u.stage with
    | .filter _ => u.family = .v4
    | .openTmp _ _ => st.tmp u.family pid ≠ none
    | .print _ _ _ => True
    | _ => False

/-- No command fails unnoticed. -/
def Noticed (st : RouteStore) : UpdateAction → Prop
  | .exec pid o => ∀ u ∈ st.updaters pid, ¬st.Unnoticed pid o u
  | _ => True

/-! ### The invariant -/

/-- What holds before a command: what has been found out is about a downloaded text, and the
temporary file with the parts still to be printed is the whole file for it, unless there is none. -/
def StageOk (f : Family) : UpdateStage → Prop
  | .fetch => True
  | .checkSource src => src ∈ st.downloads f
  | .filter src => src ∈ st.downloads f
  | .checkFiltered src filtered =>
    src ∈ st.downloads f ∧ filtered = filterRoutes f src ∧ f = .v4
  | .mkdir src filtered =>
    src ∈ st.downloads f ∧ filtered = filterRoutes f src ∧ routesFound f src = true
  | .openTmp src filtered =>
    src ∈ st.downloads f ∧ filtered = filterRoutes f src ∧ routesFound f src = true
  | .print src filtered parts =>
    src ∈ st.downloads f ∧ filtered = filterRoutes f src ∧ routesFound f src = true ∧
      ∃ text, st.tmp f pid = some text ∧
        text ++ parts.flatMap (RoutePart.text f filtered) = routeFile f src
  | .rename src =>
    src ∈ st.downloads f ∧ routesFound f src = true ∧
      ∀ text, st.tmp f pid = some text → text = routeFile f src

/-- The file of a family is the one found at the beginning, or complete for a downloaded text. -/
def TargetOk (target : Option Str) (f : Family) : Prop :=
  st.target f = target ∨
    ∃ src ∈ st.downloads f, routesFound f src = true ∧ st.target f = some (routeFile f src)

/-- Before every command of every run. -/
structure Inv (target : Family → Option Str) : Prop where
  target : ∀ f, st.TargetOk (target f) f
  updater : ∀ pid u, st.updaters pid = some u → st.StageOk pid u.family u.stage

/-- What the parts of a group print is the file. -/
theorem flatMap_routeParts (f : Family) (src : Str) :
    (routeParts f).flatMap (RoutePart.text f (filterRoutes f src)) = routeFile f src := by
  rw [routeParts, List.flatMap_append, List.flatMap_append, List.flatMap_map, List.flatMap_map,
    List.flatMap_singleton]
  rfl

variable {st : RouteStore} {pid : ℕ}

/-- What another run does to its own files, and downloads, does not matter. -/
theorem StageOk.mono {st' : RouteStore} {f : Family} {stage : UpdateStage}
    (h : st.StageOk pid f stage) (htmp : st'.tmp f pid = st.tmp f pid)
    (hdownloads : st.downloads f ⊆ st'.downloads f) : st'.StageOk pid f stage := by
  cases stage with
  | fetch => trivial
  | checkSource src => exact hdownloads h
  | filter src => exact hdownloads h
  | checkFiltered src filtered => exact ⟨hdownloads h.1, h.2⟩
  | mkdir src filtered => exact ⟨hdownloads h.1, h.2⟩
  | openTmp src filtered => exact ⟨hdownloads h.1, h.2⟩
  | print src filtered parts =>
      obtain ⟨hsrc, hfiltered, hfound, text, htext, hrest⟩ := h
      exact ⟨hdownloads hsrc, hfiltered, hfound, text, htmp.trans htext, hrest⟩
  | rename src =>
      exact ⟨hdownloads h.1, h.2.1, fun text htext => h.2.2 text (htmp.symm.trans htext)⟩

theorem TargetOk.mono {st' : RouteStore} {target : Option Str} {f : Family}
    (h : st.TargetOk target f) (htarget : st'.target f = st.target f)
    (hdownloads : st.downloads f ⊆ st'.downloads f) : st'.TargetOk target f := by
  obtain h | ⟨src, hsrc, hfound, h⟩ := h
  · exact .inl (htarget.trans h)
  · exact .inr ⟨src, hdownloads hsrc, hfound, htarget.trans h⟩

/-- What a step of a run keeps: the files of the other runs, these runs, and the downloads so far;
and the targets are complete. -/
structure Keeps (st : RouteStore) (pid : ℕ) (target : Family → Option Str)
    (st' : RouteStore) : Prop where
  tmp : ∀ f other, other ≠ pid → st'.tmp f other = st.tmp f other
  downloads : ∀ f, st.downloads f ⊆ st'.downloads f
  updaters : ∀ other, other ≠ pid → st'.updaters other = st.updaters other
  target : ∀ f, st'.TargetOk (target f) f

namespace Keeps

variable {target : Family → Option Str} {st' : RouteStore} {f : Family}

theorem refl (h : st.Inv target) : Keeps st pid target st where
  tmp _ _ _ := rfl
  downloads _ := List.Subset.refl _
  updaters _ _ := rfl
  target := h.target

theorem setUpdater (h : Keeps st pid target st') (u : Option Updater) :
    Keeps st pid target (st'.setUpdater pid u) where
  tmp := h.tmp
  downloads := h.downloads
  updaters other hother := (Function.update_of_ne hother _ _).trans (h.updaters other hother)
  target := h.target

theorem setTmp (h : Keeps st pid target st') (text : Option Str) :
    Keeps st pid target (st'.setTmp pid f text) where
  tmp g other hother := (tmp_setTmp_of_ne _ _ f g text hother).trans (h.tmp g other hother)
  downloads := h.downloads
  updaters := h.updaters
  target := h.target

theorem recordDownload (h : Keeps st pid target st') (src : Str) :
    Keeps st pid target (st'.recordDownload f src) where
  tmp := h.tmp
  downloads g := List.Subset.trans (h.downloads g) (downloads_subset_recordDownload _ f g src)
  updaters := h.updaters
  target g := (h.target g).mono rfl (downloads_subset_recordDownload _ f g src)

/-- A complete file may be put in the place of the target. -/
theorem setTarget (h : Keeps st pid target st') {src : Str} (hsrc : src ∈ st'.downloads f)
    (hfound : routesFound f src = true) :
    Keeps st pid target (st'.setTarget f (routeFile f src)) where
  tmp := h.tmp
  downloads := h.downloads
  updaters := h.updaters
  target g := by
    by_cases hg : g = f
    · subst hg
      exact .inr ⟨src, hsrc, hfound, Function.update_self _ _ _⟩
    · exact (h.target g).mono (Function.update_of_ne hg _ _) (List.Subset.refl _)

/-- The invariant after a step, if the run is before a command that fits. -/
theorem inv (h : Keeps st pid target st') (hinv : st.Inv target)
    (hu : ∀ u, st'.updaters pid = some u → st'.StageOk pid u.family u.stage) :
    st'.Inv target where
  target := h.target
  updater other u hother := by
    by_cases hpid : other = pid
    · subst hpid
      exact hu u hother
    · exact (hinv.updater other u (h.updaters other hpid ▸ hother)).mono
        (h.tmp u.family other hpid) (h.downloads u.family)

theorem inv_goOn (h : Keeps st pid target st') (hinv : st.Inv target) {stage : UpdateStage}
    (hstage : st'.StageOk pid f stage) : (st'.goOn pid f stage).Inv target := by
  refine (h.setUpdater _).inv hinv fun u hu => ?_
  obtain rfl : ⟨f, stage⟩ = u := Option.some.inj ((updaters_setUpdater_self _ _ _).symm.trans hu)
  exact hstage.mono rfl (List.Subset.refl _)

theorem inv_returned (h : Keeps st pid target st') (hinv : st.Inv target) :
    (st'.returned pid f).Inv target := by
  cases f with
  | v4 => exact h.inv_goOn hinv trivial
  | v6 =>
      refine (((h.setTmp none).setTmp none).setUpdater none).inv hinv fun u hu => ?_
      exact absurd ((updaters_setUpdater_self _ _ _).symm.trans hu) (by simp)

end Keeps

/-- Every command keeps the invariant, unless it fails unnoticed. -/
theorem Inv.exec {target : Family → Option Str} (h : st.Inv target) {u : Updater}
    (hu : st.updaters pid = some u) {o : UpdateOutcome} (ho : ¬st.Unnoticed pid o u) :
    (st.exec pid o u.family u.stage).Inv target := by
  obtain ⟨f, stage⟩ := u
  have hkeep : Keeps st pid target st := .refl h
  have hstage : st.StageOk pid f stage := h.updater pid _ hu
  have houtput (s : Str) (hok : o.ok = true) : o.output s = s := if_pos hok
  cases stage with
  | fetch =>
      cases hdownload : o.download with
      | none => simpa [RouteStore.exec, hdownload] using hkeep.inv_returned h
      | some src =>
          have hsource : (st.recordDownload f src).StageOk pid f (.checkSource src) := by
            rw [StageOk, downloads_recordDownload_self]
            exact List.mem_cons_self
          simpa [RouteStore.exec, hdownload] using (hkeep.recordDownload src).inv_goOn h hsource
  | checkSource src =>
      simp only [RouteStore.exec]
      split_ifs
      · exact hkeep.inv_returned h
      · exact hkeep.inv_goOn h hstage
  | filter src =>
      cases f with
      | v4 =>
          have hok : o.ok = true := by
            by_contra hfailed
            exact ho ⟨Bool.eq_false_iff.mpr hfailed, rfl⟩
          simp only [RouteStore.exec, houtput _ hok]
          exact hkeep.inv_goOn h ⟨hstage, rfl, rfl⟩
      | v6 =>
          simp only [RouteStore.exec]
          split_ifs with hstatus
          · rw [houtput _ hstatus.2]
            exact hkeep.inv_goOn h ⟨hstage, rfl, beq_iff_eq.mpr hstatus.1⟩
          · exact hkeep.inv_returned h
  | checkFiltered src filtered =>
      obtain ⟨hsrc, rfl, rfl⟩ := hstage
      simp only [RouteStore.exec]
      split_ifs with hempty
      · exact hkeep.inv_returned h
      · exact hkeep.inv_goOn h ⟨hsrc, rfl, by simpa [routesFound, filterRoutes] using hempty⟩
  | mkdir src filtered =>
      simp only [RouteStore.exec]
      split_ifs
      · exact hkeep.inv_goOn h hstage
      · exact hkeep.inv_returned h
  | openTmp src filtered =>
      obtain ⟨hsrc, rfl, hfound⟩ := hstage
      simp only [RouteStore.exec]
      split_ifs with hok
      · refine (hkeep.setTmp (some [])).inv_goOn h
          ⟨hsrc, rfl, hfound, [], tmp_setTmp_self _ _ f _, ?_⟩
        exact flatMap_routeParts f src
      · have hnone : st.tmp f pid = none := by
          by_contra hleft
          exact ho ⟨Bool.eq_false_iff.mpr hok, hleft⟩
        refine hkeep.inv_goOn h ⟨hsrc, hfound, fun text htext => ?_⟩
        rw [hnone] at htext
        cases htext
  | print src filtered parts =>
      obtain ⟨hsrc, rfl, hfound, text, htext, hrest⟩ := hstage
      cases parts with
      | nil =>
          rw [List.flatMap_nil, List.append_nil] at hrest
          refine hkeep.inv_goOn h ⟨hsrc, hfound, fun text' htext' => ?_⟩
          exact (Option.some.inj (htext'.symm.trans htext)).trans hrest
      | cons part parts =>
          have hok : o.ok = true := by
            by_contra hfailed
            exact ho ⟨Bool.eq_false_iff.mpr hfailed, trivial⟩
          simp only [RouteStore.exec, houtput _ hok, htext, Option.map_some]
          refine (hkeep.setTmp _).inv_goOn h ⟨hsrc, rfl, hfound, _, tmp_setTmp_self _ _ f _, ?_⟩
          rw [List.append_assoc, ← List.flatMap_cons, hrest]
  | rename src =>
      obtain ⟨hsrc, hfound, htext⟩ := hstage
      cases htmp : st.tmp f pid with
      | none =>
          simp only [RouteStore.exec, htmp]
          exact hkeep.inv_returned h
      | some text =>
          obtain rfl := htext text htmp
          simp only [RouteStore.exec, htmp]
          split_ifs
          · exact ((hkeep.setTarget hsrc hfound).setTmp none).inv_returned h
          · exact hkeep.inv_returned h

/-- The invariant after every step that does not fail unnoticed. -/
theorem Inv.step {target : Family → Option Str} {st' : RouteStore} {a : UpdateAction}
    (h : st.Inv target) (ha : st.Noticed a) (hstep : st.step a = some st') :
    st'.Inv target := by
  cases a with
  | start pid =>
      simp only [RouteStore.step] at hstep
      split at hstep
      · obtain rfl := Option.some.inj hstep
        exact (Keeps.refl h).inv_goOn h trivial
      · cases hstep
  | exec pid o =>
      obtain ⟨u, hu, rfl⟩ := Option.map_eq_some_iff.mp hstep
      exact h.exec hu (ha u hu)
  | kill pid written =>
      obtain ⟨u, hu, rfl⟩ := Option.map_eq_some_iff.mp hstep
      have htorn : Keeps st pid target (st.torn pid written u) := by
        unfold torn
        split
        · exact (Keeps.refl h).setTmp _
        · exact .refl h
      refine (htorn.setUpdater none).inv h fun u hu => ?_
      exact absurd ((updaters_setUpdater_self _ _ _).symm.trans hu) (by simp)

/-- No run has been started. -/
theorem inv_init (target : Family → Option Str) : (init target).Inv target where
  target _ := .inl rfl
  updater _ _ hu := nomatch hu

/-! ### What the setup finds -/

/-- The file is one that the setup includes; its set is not empty and covers the addresses of the
lines of the text. -/
structure IsSetOf (file src : Str) (f : Family) : Prop where
  ok : routeFileOk f file = true
  ne_nil : nftElements file ≠ []
  v4 : f = .v4 → ∃ nets, List.Forall₂ Ip4Cidr (nftElements file) nets ∧
    ∀ ip, anyContains nets ip = true ↔
      ∃ line ∈ fileLines src, ∃ t net, Ip4Line line t net ∧ net.contains ip = true
  v6 : f = .v6 → ∀ v, (∃ e ∈ nftElements file, ∃ lo hi, Ip6Range e lo hi ∧ lo ≤ v ∧ v ≤ hi) ↔
    ∃ line ∈ fileLines src, ∃ lo hi, Ip6Line line lo hi ∧ lo ≤ v ∧ v ≤ hi

theorem isSetOf_routeFile {f : Family} {src : Str} (h : routesFound f src = true) :
    IsSetOf (routeFile f src) src f where
  ok := (read_routeFile f h).2
  ne_nil := (read_routeFile f h).1 ▸ (routesFound_iff f src).mp h
  v4 hf := by
    subst hf
    exact chinaIps_iff h
  v6 hf := by
    subst hf
    exact chinaIp6s_iff h

/-- One run is killed within its third line, and a second one goes on to the rename. -/
def killedRun : List UpdateAction :=
  [.start 7, .exec 7 { download := some (ascii "1.0.1.0/24\n") }, .start 8,
    .exec 8 { download := some (ascii "\t1.0.2.0/23 \n#end\n") }] ++
  List.replicate 7 (UpdateAction.exec 7 {}) ++ [UpdateAction.kill 7 5] ++
  List.replicate 15 (UpdateAction.exec 8 {})

/-- When the print of the elements fails, an incomplete file is put in the place of a target. -/
theorem target_torn :
    ∃ st, run step (init fun _ => none)
        ([.start 7, .exec 7 { download := some (ascii "1.0.1.0/24\n") }] ++
          List.replicate 10 (UpdateAction.exec 7 {}) ++ [UpdateAction.exec 7 { ok := false }] ++
          List.replicate 4 (UpdateAction.exec 7 {})) = some st ∧
      st.target .v4 = some (unlines (routeHeader .v4 ++ routeFooter)) :=
  ⟨_, rfl, by decide +kernel⟩

end RouteStore

end XtpRs.Scripts
