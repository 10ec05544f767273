import XtpRs.Lib.Run
import XtpRs.Scripts.Capture

/-!
# Setting up and taking down the capture

`setup-xtp-rs.sh` makes the local route, then the rule that sends marked packets to it, then loads
the `nft` table; `unsetup-xtp-rs.sh` removes the rule, then the route, then the table. Every
function of `common.sh` looks first whether there is something to do. The scripts run with `set -e`,
so a command that fails ends them, and they may be killed. If the rule were there without the route,
marked packets would be lost.

A look reads the output of a command. If the command fails the look finds nothing, and the script
goes on as if there were nothing. `has_ip_rule` looks for a line with `fwmark` and, behind it,
`lookup` and the number of the table. It takes the rule of another table for its own if the name of
that table begins with this number.

`load_nft_table` deletes the old table before it loads the new one, and loads a backup of the old
one if that fails. If the rules refuse foreign QUIC with `reject`, which old kernels do not have,
and the action was not chosen by the user, the script tries again with `drop`.

The commands of a script are run one after the other. Between them it may be killed, and other
programs may change the rules as long as they do not add the one of the scripts; they leave the
routes of its table and the `nft` table alone. The scripts themselves run one at a time. A command
that fails changes nothing. What a command prints is left out.

## Main definitions

* `Kernel`, `Op.exec`: what the commands change.
* `SetupState`, `SetupState.step`: runs of the scripts.
* `Covered`: what the scripts ensure by the order of their commands.

## Main results

* `SetupState.rule_has_route`: at no point is there a rule without its route, as long as no look at
  the rules misses it.
* `SetupState.table_eq_loaded`: the table is the one loaded last, or missing.
-/

namespace XtpRs.Scripts

open Lib

/-- The families of the routing tables. -/
inductive Family
  | v4
  | v6
  deriving DecidableEq, Repr

/-- A line of `ip rule show`: the mark it asks for, and the name of its table. -/
structure IpRule where
  fwmark : Option UInt32
  table : Str
  deriving DecidableEq, Repr

/-- `XTP_TABLE_ID`, as text. -/
def tableId : Str := [0x31, 0x30, 0x30]

/-- `ip rule add fwmark "$XTP_FWMARK" table "$XTP_TABLE_ID"`. -/
def markRuleOf : IpRule := ⟨some fwmark, tableId⟩

/-- The routing of a family: its rules, and whether the local route is in the table. -/
structure FamilyRouting where
  rules : List IpRule
  localRoute : Bool
  deriving DecidableEq, Repr

/-- What the scripts change. The table is given by the rules that were loaded into it, each by the
settings it was written from; it is missing when there are none. -/
structure Kernel where
  v4 : FamilyRouting
  v6 : FamilyRouting
  table : List Setup

namespace Kernel

def routing (k : Kernel) : Family → FamilyRouting
  | .v4 => k.v4
  | .v6 => k.v6

def setRouting (k : Kernel) (f : Family) (r : FamilyRouting) : Kernel :=
  match f with
  | .v4 => { k with v4 := r }
  | .v6 => { k with v6 := r }

@[simp] theorem routing_setRouting_self (k : Kernel) (f : Family) (r : FamilyRouting) :
    (k.setRouting f r).routing f = r := by
  cases f <;> rfl

theorem routing_setRouting_of_ne (k : Kernel) {f g : Family} (r : FamilyRouting) (h : g ≠ f) :
    (k.setRouting f r).routing g = k.routing g := by
  cases f <;> cases g <;> first | rfl | exact absurd rfl h

@[simp] theorem table_setRouting (k : Kernel) (f : Family) (r : FamilyRouting) :
    (k.setRouting f r).table = k.table := by
  cases f <;> rfl

end Kernel

/-- `has_ip_rule`. -/
def FamilyRouting.hasIpRule (r : FamilyRouting) : Bool :=
  r.rules.any fun rule => rule.fwmark.isSome && tableId.isPrefixOf rule.table

/-- `ban_action_downgrade`: the rules with `drop` in the place of `reject`. -/
def Setup.downgrade (s : Setup) : Setup :=
  { s with banForeignQuic := s.banForeignQuic.map fun _ => .drop }

/-- The commands of the scripts. A function of `common.sh` starts with its look; what that finds
decides whether its command is run. Those of `load_nft_table` carry the new rules, what the backup
holds, and the rules to be loaded if it fails. -/
inductive Op
  | addIpRoute (f : Family)
  | ipRouteAdd (f : Family)
  | addIpRule (f : Family)
  /-- `ip rule add` with `protocol kernel`. -/
  | ipRuleAdd (f : Family)
  /-- `ip rule add` without it. -/
  | ipRuleAddPlain (f : Family)
  | modules
  /-- The new rules are written to a file. -/
  | loadNftTable (new : Setup) (retry : List Setup)
  | hasNftTable (new : Setup) (retry : List Setup)
  | nftList (new : Setup) (retry : List Setup)
  | nftReplace (new : Setup) (backup : List Setup) (retry : List Setup)
  | nftLoad (new : Setup) (backup : List Setup) (retry : List Setup)
  | nftRollback (backup : List Setup) (retry : List Setup)
  | delIpRule (f : Family)
  | ipRuleDel (f : Family)
  | delIpRoute (f : Family)
  | ipRouteDel (f : Family)
  | delNftTable
  | nftDelete

/-- The settings a script is run with; `auto` when the user has not chosen the action against
foreign QUIC. -/
structure ScriptSettings where
  setup : Setup
  auto : Bool

/-- The rules to be loaded when the first ones are not. -/
def ScriptSettings.retry (settings : ScriptSettings) : List Setup :=
  if settings.auto && settings.setup.banForeignQuic == some .reject then
    [settings.setup.downgrade]
  else []

/-- `setup-xtp-rs.sh` from its first change on. -/
def setupScript (settings : ScriptSettings) : List Op :=
  [.addIpRoute .v4, .addIpRoute .v6, .addIpRule .v4, .addIpRule .v6, .modules,
    .loadNftTable settings.setup settings.retry]

/-- `unsetup-xtp-rs.sh`. -/
def unsetupScript : List Op :=
  [.delIpRule .v4, .delIpRule .v6, .delIpRoute .v4, .delIpRoute .v6, .delNftTable]

/-- `load_nft_table` fails: other rules are tried, or the script ends. -/
def loadFailed : List Setup → Option (List Op)
  | [] => none
  | new :: retry => some [.loadNftTable new retry]

/-- A command that succeeds or not: what it leaves, and which commands come before the others; none
if the script ends. -/
def Op.exec (ok : Bool) (k : Kernel) : Op → Kernel × Option (List Op)
  | .addIpRoute f => (k, some (if ok && (k.routing f).localRoute then [] else [.ipRouteAdd f]))
  | .ipRouteAdd f =>
    let r := k.routing f
    if ok && !r.localRoute then (k.setRouting f { r with localRoute := true }, some [])
    else (k, none)
  | .addIpRule f => (k, some (if ok && (k.routing f).hasIpRule then [] else [.ipRuleAdd f]))
  | .ipRuleAdd f =>
    let r := k.routing f
    if ok then (k.setRouting f { r with rules := r.rules ++ [markRuleOf] }, some [])
    else (k, some [.ipRuleAddPlain f])
  | .ipRuleAddPlain f =>
    let r := k.routing f
    if ok then (k.setRouting f { r with rules := r.rules ++ [markRuleOf] }, some [])
    else (k, none)
  | .modules => (k, if ok then some [] else none)
  | .loadNftTable new retry => (k, if ok then some [.hasNftTable new retry] else loadFailed retry)
  | .hasNftTable new retry =>
    (k, some [if ok && !k.table.isEmpty then .nftList new retry else .nftLoad new [] retry])
  | .nftList new retry => (k, some [.nftReplace new (if ok then k.table else []) retry])
  | .nftReplace new backup retry =>
    (if ok then { k with table := [] } else k, some [.nftLoad new backup retry])
  | .nftLoad new backup retry =>
    if ok then ({ k with table := k.table ++ [new] }, some [])
    else (k, if backup.isEmpty then loadFailed retry else some [.nftRollback backup retry])
  | .nftRollback backup retry =>
    (if ok then { k with table := k.table ++ backup } else k, loadFailed retry)
  | .delIpRule f => (k, some (if ok && (k.routing f).hasIpRule then [.ipRuleDel f] else []))
  | .ipRuleDel f =>
    let r := k.routing f
    -- the command fails when the line that was seen is another one
    if ok && r.rules.contains markRuleOf then
      (k.setRouting f { r with rules := r.rules.erase markRuleOf }, some [])
    else (k, none)
  | .delIpRoute f => (k, some (if ok && (k.routing f).localRoute then [.ipRouteDel f] else []))
  | .ipRouteDel f =>
    let r := k.routing f
    if ok && r.localRoute then (k.setRouting f { r with localRoute := false }, some [])
    else (k, none)
  | .delNftTable => (k, some (if ok && !k.table.isEmpty then [.nftDelete] else []))
  | .nftDelete => if ok then ({ k with table := [] }, some []) else (k, none)

/-- The kernel, the commands still to come of the script that runs, and a record of the rules that
were loaded last and have not been taken down. -/
structure SetupState where
  kernel : Kernel
  running : List Op
  loaded : Option Setup

/-- What happens. -/
inductive SetupAction
  | setup (settings : ScriptSettings)
  | unsetup
  /-- The script that runs takes its next step. -/
  | exec (ok : Bool)
  | kill
  /-- Another program changes the rules of a family. -/
  | otherRules (f : Family) (rules : List IpRule)

namespace SetupState

/-- Before the first run: the rule, the route and the table are not there. -/
def init (v4 v6 : List IpRule) : SetupState where
  kernel := ⟨⟨v4, false⟩, ⟨v6, false⟩, []⟩
  running := []
  loaded := none

/-- The record after a command. -/
def record (ok : Bool) (loaded : Option Setup) : Op → Option Setup
  | .nftLoad new _ _ => if ok then some new else loaded
  | .nftDelete => if ok then none else loaded
  | _ => loaded

def step (st : SetupState) : SetupAction → Option SetupState
  | .setup settings =>
    if st.running.isEmpty then some { st with running := setupScript settings } else none
  | .unsetup => if st.running.isEmpty then some { st with running := unsetupScript } else none
  | .exec ok =>
    match st.running with
    | [] => none
    | op :: rest =>
      let r := op.exec ok st.kernel
      some ⟨r.1, (r.2.map (· ++ rest)).getD [], record ok st.loaded op⟩
  | .kill => some { st with running := [] }
  | .otherRules f rules =>
    if rules.count markRuleOf ≤ (st.kernel.routing f).rules.count markRuleOf then
      some { st with
        kernel := st.kernel.setRouting f { st.kernel.routing f with rules } }
    else none

/-- A step starts a script, takes the next step of the one that runs, ends it, or is one of another
program. -/
theorem step_cases {st st' : SetupState} {a : SetupAction} (h : st.step a = some st') :
    (∃ settings, a = .setup settings ∧ st.running = [] ∧
      st' = { st with running := setupScript settings }) ∨
    (a = .unsetup ∧ st.running = [] ∧ st' = { st with running := unsetupScript }) ∨
    (∃ ok op rest, a = .exec ok ∧ st.running = op :: rest ∧
      st' = ⟨(op.exec ok st.kernel).1, ((op.exec ok st.kernel).2.map (· ++ rest)).getD [],
        record ok st.loaded op⟩) ∨
    (a = .kill ∧ st' = { st with running := [] }) ∨
    (∃ f rules, a = .otherRules f rules ∧
      rules.count markRuleOf ≤ (st.kernel.routing f).rules.count markRuleOf ∧
      st' = { st with
        kernel := st.kernel.setRouting f { st.kernel.routing f with rules } }) := by
  cases a with
  | setup settings =>
    simp only [step] at h
    split_ifs at h with hidle
    exact .inl ⟨settings, rfl, List.isEmpty_iff.mp hidle, (Option.some.inj h).symm⟩
  | unsetup =>
    simp only [step] at h
    split_ifs at h with hidle
    exact .inr (.inl ⟨rfl, List.isEmpty_iff.mp hidle, (Option.some.inj h).symm⟩)
  | exec ok =>
    simp only [step] at h
    cases hrunning : st.running with
    | nil => simp [hrunning] at h
    | cons op rest =>
      simp only [hrunning, Option.some.injEq] at h
      exact .inr (.inr (.inl ⟨ok, op, rest, rfl, rfl, h.symm⟩))
  | kill => exact .inr (.inr (.inr (.inl ⟨rfl, (Option.some.inj h).symm⟩)))
  | otherRules f rules =>
    simp only [step] at h
    split_ifs at h with hcount
    exact .inr (.inr (.inr (.inr ⟨f, rules, rfl, hcount, (Option.some.inj h).symm⟩)))

end SetupState

/-! ### Rules and routes -/

namespace Op

/-- The family that a command is about. -/
def family : Op → Option Family
  | .addIpRoute f | .ipRouteAdd f | .addIpRule f | .ipRuleAdd f | .ipRuleAddPlain f
  | .delIpRule f | .ipRuleDel f | .delIpRoute f | .ipRouteDel f => some f
  | _ => none

/-- What a command needs to be sure of in its family: that the route is there, that the rule is
not. -/
def Needs (route noRule : Prop) : Op → Prop
  | .addIpRule _ => route
  | .ipRuleAdd _ | .ipRuleAddPlain _ => route ∧ noRule
  | .delIpRoute _ | .ipRouteDel _ => noRule
  | _ => True

/-- Whether one can be sure of the route after a command of its family that lets the script go
on. -/
def RouteAfter (route : Prop) : Op → Prop
  | .addIpRoute _ | .ipRouteAdd _ => True
  | .delIpRoute _ | .ipRouteDel _ => False
  | _ => route

/-- Whether one can be sure then that the rule is not there. -/
def NoRuleAfter (noRule : Prop) : Op → Prop
  | .addIpRule _ | .ipRuleAdd _ | .ipRuleAddPlain _ => False
  | .delIpRule _ | .ipRuleDel _ => True
  | _ => noRule

end Op

/-- The commands come in such an order that each is sure of what it needs in a family: no rule is
added before its route, and no route is removed before its rule. -/
def Covered (f : Family) : Prop → Prop → List Op → Prop
  | _, _, [] => True
  | route, noRule, op :: ops =>
    if op.family = some f then
      op.Needs route noRule ∧ Covered f (op.RouteAfter route) (op.NoRuleAfter noRule) ops
    else Covered f route noRule ops

section Covered

variable {f : Family} {route noRule route' noRule' : Prop} {op : Op} {ops : List Op}

theorem covered_cons (op : Op) (h : op.family = some f) :
    Covered f route noRule (op :: ops) ↔
      op.Needs route noRule ∧ Covered f (op.RouteAfter route) (op.NoRuleAfter noRule) ops := by
  rw [Covered, if_pos h]

theorem covered_cons_other (h : op.family ≠ some f) :
    Covered f route noRule (op :: ops) ↔ Covered f route noRule ops := by
  rw [Covered, if_neg h]

theorem covered_append_other {new : List Op} (h : ∀ op ∈ new, op.family ≠ some f) :
    Covered f route noRule (new ++ ops) ↔ Covered f route noRule ops := by
  induction new with
  | nil => rfl
  | cons op new ih =>
    rw [List.cons_append, covered_cons_other (h op List.mem_cons_self)]
    exact ih fun op hop => h op (List.mem_cons_of_mem _ hop)

/-- The surer one is, the more one may do. -/
theorem Covered.mono (h : Covered f route noRule ops) (hroute : route → route')
    (hrule : noRule → noRule') : Covered f route' noRule' ops := by
  induction ops generalizing route noRule route' noRule' with
  | nil => trivial
  | cons op ops ih =>
    by_cases hop : op.family = some f
    · rw [covered_cons _ hop] at h ⊢
      refine ⟨?_, ih h.2 ?_ ?_⟩
      · have hneeds := h.1
        cases op <;> simp only [Op.Needs] at hneeds ⊢ <;> tauto
      · cases op <;> simp only [Op.RouteAfter] <;> tauto
      · cases op <;> simp only [Op.NoRuleAfter] <;> tauto
    · rw [covered_cons_other hop] at h ⊢
      exact ih h hroute hrule

theorem covered_setupScript (settings : ScriptSettings) (f : Family) (route noRule : Prop) :
    Covered f route noRule (setupScript settings) := by
  cases f <;> simp [setupScript, Covered, Op.family, Op.Needs, Op.RouteAfter]

theorem covered_unsetupScript (f : Family) (route noRule : Prop) :
    Covered f route noRule unsetupScript := by
  cases f <;> simp [unsetupScript, Covered, Op.family, Op.Needs, Op.NoRuleAfter]

end Covered

theorem mem_hasIpRule {r : FamilyRouting} (h : markRuleOf ∈ r.rules) : r.hasIpRule = true :=
  List.any_eq_true.mpr ⟨markRuleOf, h, by decide⟩

namespace Op

variable {f : Family} {ok : Bool} {k : Kernel} {op : Op}

theorem routing_exec (h : op.family ≠ some f) : (op.exec ok k).1.routing f = k.routing f := by
  have hother {g : Family} (hg : some g ≠ some f) (r : FamilyRouting) :
      (k.setRouting g r).routing f = k.routing f :=
    k.routing_setRouting_of_ne r fun heq => hg (congrArg some heq.symm)
  cases op with
  | addIpRoute | addIpRule | delIpRule | delIpRoute | delNftTable | modules | loadNftTable
  | hasNftTable | nftList => rfl
  | ipRouteAdd | ipRuleAdd | ipRuleAddPlain | ipRuleDel | ipRouteDel =>
    simp only [exec]
    split_ifs <;> first | rfl | exact hother h _
  | nftReplace | nftLoad | nftRollback | nftDelete =>
    cases ok <;> cases f <;> rfl

/-- What a command puts before the others is about the same family. -/
theorem family_exec {next : List Op} (h : (op.exec ok k).2 = some next) :
    ∀ op' ∈ next, op'.family = op.family := by
  have hfailed {retry : List Setup} (hnext : loadFailed retry = some next) :
      ∀ op' ∈ next, op'.family = none := by
    cases retry with
    | nil => cases hnext
    | cons new retry =>
      obtain rfl := Option.some.inj hnext
      simp [family]
  cases op with
  | loadNftTable | nftLoad =>
    simp only [exec] at h
    split_ifs at h <;> first | exact hfailed h | (obtain rfl := Option.some.inj h; simp [family])
  | nftRollback => exact hfailed h
  | nftReplace =>
    obtain rfl := Option.some.inj h
    simp [family]
  | _ =>
    simp only [exec] at h
    split_ifs at h <;> (obtain rfl := Option.some.inj h; simp [family])

end Op

/-- The rule and the route of a family, and what the commands still to come are sure of. -/
structure OrderInv (f : Family) (k : Kernel) (running : List Op) : Prop where
  once : (k.routing f).rules.count markRuleOf ≤ 1
  safe : markRuleOf ∈ (k.routing f).rules → (k.routing f).localRoute = true
  covered : Covered f ((k.routing f).localRoute = true) (markRuleOf ∉ (k.routing f).rules) running

/-- A command does not miss the rule of the scripts when it looks for it. -/
def Op.Sees (ok : Bool) (k : Kernel) : Op → Prop
  | .addIpRule f | .delIpRule f => ok = true ∨ markRuleOf ∉ (k.routing f).rules
  | _ => True

namespace OrderInv

variable {f : Family} {k : Kernel} {op : Op} {rest : List Op}

/-- A script that ends leaves nothing to do. -/
theorem stop {running : List Op} (h : OrderInv f k running) : OrderInv f k [] :=
  ⟨h.once, h.safe, trivial⟩

/-- Nothing has changed, and the commands to come are sure of no more than there is. -/
theorem unchanged {running : List Op} (h : OrderInv f k running) {route noRule : Prop}
    {next : List Op} (hcovered : Covered f route noRule next)
    (hroute : route → (k.routing f).localRoute = true)
    (hrule : noRule → markRuleOf ∉ (k.routing f).rules) : OrderInv f k next :=
  ⟨h.once, h.safe, hcovered.mono hroute hrule⟩

/-- The family has changed. -/
theorem changed {r : FamilyRouting} {route noRule : Prop}
    (hcovered : Covered f route noRule rest) (honce : r.rules.count markRuleOf ≤ 1)
    (hsafe : markRuleOf ∈ r.rules → r.localRoute = true) (hroute : route → r.localRoute = true)
    (hrule : noRule → markRuleOf ∉ r.rules) : OrderInv f (k.setRouting f r) rest := by
  constructor <;> rw [k.routing_setRouting_self]
  · exact honce
  · exact hsafe
  · exact hcovered.mono hroute hrule

/-- A new rule has its route. -/
theorem ruleAdded (hneeds : (k.routing f).localRoute = true ∧ markRuleOf ∉ (k.routing f).rules)
    (hcovered : Covered f ((k.routing f).localRoute = true) False rest) :
    OrderInv f
      (k.setRouting f { k.routing f with rules := (k.routing f).rules ++ [markRuleOf] }) rest := by
  refine changed hcovered ?_ (fun _ => hneeds.1) id False.elim
  rw [List.count_append, List.count_eq_zero_of_not_mem hneeds.2]
  simp

theorem notMem_erase (honce : (k.routing f).rules.count markRuleOf ≤ 1) :
    markRuleOf ∉ (k.routing f).rules.erase markRuleOf := by
  rw [← List.count_eq_zero, List.count_erase_self]
  omega

/-- A look that does not miss the rule and finds none. -/
theorem notMem_of_looked {ok : Bool} {r : FamilyRouting} (hsees : ok = true ∨ markRuleOf ∉ r.rules)
    (hlooked : (ok && r.hasIpRule) = false) : markRuleOf ∉ r.rules := by
  refine hsees.elim (fun hok hmem => ?_) id
  rw [hok, mem_hasIpRule hmem] at hlooked
  cases hlooked

/-- A command of the family. -/
theorem exec_self {ok : Bool} (h : OrderInv f k (op :: rest)) (hfamily : op.family = some f)
    (hsees : op.Sees ok k) :
    OrderInv f (op.exec ok k).1 (((op.exec ok k).2.map (· ++ rest)).getD []) := by
  obtain ⟨hneeds, hcovered⟩ := (covered_cons _ hfamily).mp h.covered
  cases op with
  | addIpRoute g =>
    obtain rfl := Option.some.inj hfamily
    cases hlooked : ok && (k.routing g).localRoute with
    | true =>
      have hlocal : (k.routing g).localRoute = true := (Bool.and_eq_true_iff.mp hlooked).2
      simpa [Op.exec, hlooked] using h.unchanged hcovered (fun _ => hlocal) id
    | false =>
      simpa [Op.exec, hlooked] using
        h.unchanged ((covered_cons (.ipRouteAdd g) rfl).mpr ⟨trivial, hcovered⟩) id id
  | ipRouteAdd g =>
    obtain rfl := Option.some.inj hfamily
    cases hadded : ok && !(k.routing g).localRoute with
    | true =>
      simpa [Op.exec, hadded] using
        changed (k := k) (r := { k.routing g with localRoute := true }) hcovered h.once
          (fun _ => rfl) (fun _ => rfl) id
    | false => simpa [Op.exec, hadded] using h.stop
  | addIpRule g =>
    obtain rfl := Option.some.inj hfamily
    cases hlooked : ok && (k.routing g).hasIpRule with
    | true => simpa [Op.exec, hlooked] using h.unchanged hcovered id False.elim
    | false =>
      have habsent : markRuleOf ∉ (k.routing g).rules := notMem_of_looked hsees hlooked
      simpa [Op.exec, hlooked] using h.unchanged
        ((covered_cons (.ipRuleAdd g) rfl).mpr ⟨⟨hneeds, habsent⟩, hcovered⟩) id id
  | ipRuleAdd g =>
    obtain rfl := Option.some.inj hfamily
    cases ok with
    | true => simpa [Op.exec] using ruleAdded hneeds hcovered
    | false =>
      simpa [Op.exec] using
        h.unchanged ((covered_cons (.ipRuleAddPlain g) rfl).mpr ⟨hneeds, hcovered⟩) id id
  | ipRuleAddPlain g =>
    obtain rfl := Option.some.inj hfamily
    cases ok with
    | true => simpa [Op.exec] using ruleAdded hneeds hcovered
    | false => simpa [Op.exec] using h.stop
  | delIpRule g =>
    obtain rfl := Option.some.inj hfamily
    cases hlooked : ok && (k.routing g).hasIpRule with
    | true =>
      simpa [Op.exec, hlooked] using
        h.unchanged ((covered_cons (.ipRuleDel g) rfl).mpr ⟨trivial, hcovered⟩) id id
    | false =>
      have habsent : markRuleOf ∉ (k.routing g).rules := notMem_of_looked hsees hlooked
      simpa [Op.exec, hlooked] using h.unchanged hcovered id fun _ => habsent
  | ipRuleDel g =>
    obtain rfl := Option.some.inj hfamily
    cases hdeleted : ok && (k.routing g).rules.contains markRuleOf with
    | true =>
      have herased := notMem_erase h.once
      have hdone : OrderInv g
          (k.setRouting g
            { k.routing g with rules := (k.routing g).rules.erase markRuleOf }) rest :=
        changed hcovered (by rw [List.count_eq_zero_of_not_mem herased]; exact Nat.zero_le 1)
          (fun hmem => absurd hmem herased) id fun _ => herased
      simpa only [Op.exec, hdeleted, if_true, Option.map_some, Option.getD_some,
        List.nil_append] using hdone
    | false =>
      simpa only [Op.exec, hdeleted, Bool.false_eq_true, if_false, Option.map_none,
        Option.getD_none] using h.stop
  | delIpRoute g =>
    obtain rfl := Option.some.inj hfamily
    cases hlooked : ok && (k.routing g).localRoute with
    | true =>
      simpa [Op.exec, hlooked] using
        h.unchanged ((covered_cons (.ipRouteDel g) rfl).mpr ⟨hneeds, hcovered⟩) id id
    | false => simpa [Op.exec, hlooked] using h.unchanged hcovered False.elim id
  | ipRouteDel g =>
    obtain rfl := Option.some.inj hfamily
    cases hdeleted : ok && (k.routing g).localRoute with
    | true =>
      simpa [Op.exec, hdeleted] using
        changed (k := k) (r := { k.routing g with localRoute := false }) hcovered h.once
          (fun hmem => absurd hmem hneeds) False.elim id
    | false => simpa [Op.exec, hdeleted] using h.stop
  | modules | loadNftTable | hasNftTable | nftList | nftReplace | nftLoad | nftRollback
  | delNftTable | nftDelete => cases hfamily

/-- Any command. -/
theorem exec {ok : Bool} (h : OrderInv f k (op :: rest)) (hsees : op.Sees ok k) :
    OrderInv f (op.exec ok k).1 (((op.exec ok k).2.map (· ++ rest)).getD []) := by
  by_cases hfamily : op.family = some f
  · exact h.exec_self hfamily hsees
  · have hcovered := (covered_cons_other hfamily).mp h.covered
    have hrouting : (op.exec ok k).1.routing f = k.routing f := Op.routing_exec hfamily
    constructor <;> rw [hrouting]
    · exact h.once
    · exact h.safe
    · cases hnext : (op.exec ok k).2 with
      | none => trivial
      | some next =>
        refine (covered_append_other fun op' hop' => ?_).mpr hcovered
        rwa [Op.family_exec hnext op' hop']

/-- Other programs add no rule of the scripts. -/
theorem otherRules {running : List Op} (h : OrderInv f k running) {g : Family}
    {rules : List IpRule}
    (hcount : rules.count markRuleOf ≤ (k.routing g).rules.count markRuleOf) :
    OrderInv f (k.setRouting g { k.routing g with rules }) running := by
  by_cases hg : f = g
  · subst hg
    have hmem : markRuleOf ∈ rules → markRuleOf ∈ (k.routing f).rules := fun hin => by
      rw [← List.count_pos_iff] at hin ⊢
      omega
    exact changed h.covered (hcount.trans h.once) (fun hin => h.safe (hmem hin)) id
      fun habsent hin => habsent (hmem hin)
  · have hrouting : (k.setRouting g { k.routing g with rules }).routing f = k.routing f :=
      k.routing_setRouting_of_ne _ hg
    constructor <;> rw [hrouting]
    · exact h.once
    · exact h.safe
    · exact h.covered

end OrderInv

namespace SetupState

/-- No look of the scripts at the rules misses their own. -/
def SeesRule (st : SetupState) : SetupAction → Prop
  | .exec ok => ∀ op ∈ st.running.head?, op.Sees ok st.kernel
  | _ => True

theorem orderInv_step {f : Family} {st st' : SetupState} {a : SetupAction}
    (h : OrderInv f st.kernel st.running) (ha : SeesRule st a) (hstep : st.step a = some st') :
    OrderInv f st'.kernel st'.running := by
  obtain ⟨settings, rfl, -, rfl⟩ | ⟨rfl, -, rfl⟩ | ⟨ok, op, rest, rfl, hrunning, rfl⟩ |
    ⟨rfl, rfl⟩ | ⟨g, rules, rfl, hcount, rfl⟩ := step_cases hstep
  · exact ⟨h.once, h.safe, covered_setupScript settings f _ _⟩
  · exact ⟨h.once, h.safe, covered_unsetupScript f _ _⟩
  · exact (hrunning ▸ h).exec (ha op (by rw [hrunning]; rfl))
  · exact h.stop
  · exact h.otherRules hcount

/-- **No rule without its route.** Let the rule of the scripts not be there at first. In all runs of
the two scripts, one after the other, with any of their commands failing, killed at any point, while
other programs change the other rules or remove this one, the rule that sends marked packets to the
local route is there only while the route is, as long as no look at the rules misses it. -/
theorem rule_has_route {v4 v6 : List IpRule} (h4 : markRuleOf ∉ v4) (h6 : markRuleOf ∉ v6)
    {st : SetupState} (h : Steps step SeesRule (init v4 v6) st) (f : Family) :
    markRuleOf ∈ (st.kernel.routing f).rules → (st.kernel.routing f).localRoute = true := by
  have habsent : markRuleOf ∉ ((init v4 v6).kernel.routing f).rules := by
    cases f
    · exact h4
    · exact h6
  have hinit : OrderInv f (init v4 v6).kernel (init v4 v6).running := by
    refine ⟨?_, fun hmem => absurd hmem habsent, trivial⟩
    rw [List.count_eq_zero_of_not_mem habsent]
    exact Nat.zero_le 1
  exact (h.invariant (I := fun st => OrderInv f st.kernel st.running) hinit
    fun _ _ _ h ha hstep => orderInv_step h ha hstep).safe

/-- The rule of another table with another mark, and a table whose name begins like that of the
scripts. -/
def otherTables : List IpRule := [⟨some 7, [0x39]⟩, ⟨none, [0x31, 0x30, 0x30, 0x31]⟩]

/-- The settings of a machine without other interfaces. -/
def plainSettings : ScriptSettings where
  setup := { ingressIfaces := [], localIp := [] }
  auto := true

/-- Setting up is killed after the rule for IPv4. -/
def halfSetUp : List SetupAction :=
  .setup plainSettings :: List.replicate 6 (.exec true) ++ [.kill]

/-- Taking down finds the rule and stops when it cannot be removed. -/
theorem rule_has_route_halfSetUp :
    ∃ st st', run step (init otherTables []) (halfSetUp ++ [.unsetup, .exec true]) = some st ∧
      st.step (.exec false) = some st' ∧ st'.running.isEmpty = true ∧
      markRuleOf ∈ st'.kernel.v4.rules ∧
      (markRuleOf ∈ (st'.kernel.routing .v4).rules →
        (st'.kernel.routing .v4).localRoute = true) := by
  obtain ⟨st, st', hrun, hhead, hstep, hrunning, hrule⟩ : ∃ st st',
      run step (init otherTables []) (halfSetUp ++ [.unsetup, .exec true]) = some st ∧
      st.running.head? = some (.ipRuleDel .v4) ∧ st.step (.exec false) = some st' ∧
      st'.running.isEmpty = true ∧ markRuleOf ∈ st'.kernel.v4.rules :=
    ⟨_, _, rfl, rfl, rfl, rfl, by decide⟩
  have hsees : ∀ a ∈ halfSetUp ++ [.unsetup, .exec true], ∀ u, SeesRule u a := by
    intro a ha u
    have ha : a = .exec true ∨ ∀ ok, a ≠ .exec ok := by
      simp only [halfSetUp, List.mem_append, List.mem_cons, List.mem_replicate] at ha
      grind
    obtain rfl | ha := ha
    · intro op _
      cases op <;> first | trivial | exact .inl rfl
    · cases a with
      | exec ok => exact absurd rfl (ha ok)
      | _ => trivial
  refine ⟨st, st', hrun, hstep, hrunning, hrule, rule_has_route (by decide) (by decide)
    (.tail (.of_run hsees hrun) (fun op hop => ?_) hstep) .v4⟩
  rw [hhead] at hop
  obtain rfl := Option.some.inj hop
  trivial

/-- When `ip rule show` fails, taking down removes the route and leaves the rule. -/
theorem rule_without_route :
    ∃ st, run step (init [] [])
        (halfSetUp ++ [.unsetup, .exec false, .exec true, .exec true, .exec true]) = some st ∧
      markRuleOf ∈ st.kernel.v4.rules ∧ st.kernel.v4.localRoute = false :=
  ⟨_, rfl, by decide, rfl⟩

/-! ### The table -/

end SetupState

namespace Op

/-- What holds of the table before a command, where `P` relates rules to the record: the table is in
order, or it has been deleted and the backup is in order. -/
def Fits (P : List Setup → Option Setup → Prop) (table : List Setup) (loaded : Option Setup) :
    Op → Prop
  | .nftReplace _ backup _ => P table loaded ∧ P backup loaded
  | .nftLoad _ backup _ => table = [] ∧ P backup loaded
  | .nftRollback backup _ => table = [] ∧ P backup loaded
  | _ => P table loaded

/-- A command with which no replacement is under way. -/
def Settled : Op → Prop
  | .nftReplace _ _ _ | .nftLoad _ _ _ | .nftRollback _ _ => False
  | _ => True

theorem Settled.fits {op : Op} (h : op.Settled) {P : List Setup → Option Setup → Prop}
    {table : List Setup} {loaded : Option Setup} : op.Fits P table loaded ↔ P table loaded := by
  cases op <;> first | rfl | exact h.elim

/-- The table has been deleted, and the command is to bring the new one or the old one. -/
def Replaces : Op → Prop
  | .nftLoad _ _ _ | .nftRollback _ _ => True
  | _ => False

theorem settled_of_family {op : Op} {f : Family} (h : op.family = some f) : op.Settled := by
  cases op <;> trivial

/-- The table is there, and the command misses it or fails to delete it before a load. -/
def KeepsOld (ok : Bool) (k : Kernel) : Op → Prop
  | .hasNftTable _ _ | .nftReplace _ _ _ => ok = false ∧ k.table ≠ []
  | _ => False

/-- The old rules are not saved, or not loaded again. -/
def LosesOld (ok : Bool) : Op → Prop
  | .nftList _ _ | .nftRollback _ _ => ok = false
  | _ => False

end Op

namespace SetupState

/-- The table has been deleted for a load that is still to come. -/
def Replacing (st : SetupState) : Prop := ∃ op ∈ st.running.head?, op.Replaces

/-- A step by which the old rules stay where new ones are loaded. -/
def KeepsOld (st : SetupState) : SetupAction → Prop
  | .exec ok => ∃ op ∈ st.running.head?, op.KeepsOld ok st.kernel
  | _ => False

/-- A step by which the old rules may be lost: no backup, no rollback, or the script is killed while
it replaces them. -/
def LosesOld (st : SetupState) : SetupAction → Prop
  | .exec ok => ∃ op ∈ st.running.head?, op.LosesOld ok
  | .kill => st.Replacing
  | _ => False

end SetupState

/-- The table is in order, but for a replacement that is under way. -/
def TableInv (P : List Setup → Option Setup → Prop) (table : List Setup) (loaded : Option Setup) :
    List Op → Prop
  | [] => P table loaded
  | op :: rest => op.Fits P table loaded ∧ ∀ op' ∈ rest, op'.Settled

namespace TableInv

variable {P : List Setup → Option Setup → Prop} {table : List Setup} {loaded : Option Setup}
  {ops rest : List Op}

theorem of_settled (h : P table loaded) (hsettled : ∀ op ∈ ops, op.Settled) :
    TableInv P table loaded ops := by
  cases ops with
  | nil => exact h
  | cons op ops =>
    exact ⟨(hsettled op List.mem_cons_self).fits.mpr h,
      fun op' hop' => hsettled op' (List.mem_cons_of_mem _ hop')⟩

/-- The table is in order, or a replacement has deleted it. -/
theorem inOrder_or (h : TableInv P table loaded ops) :
    P table loaded ∨ table = [] ∧ ∃ op ∈ ops.head?, op.Replaces := by
  cases ops with
  | nil => exact .inl h
  | cons op rest =>
    have hfits := h.1
    cases op with
    | nftLoad | nftRollback => exact .inr ⟨hfits.1, _, rfl, trivial⟩
    | nftReplace => exact .inl hfits.1
    | _ => exact .inl hfits

/-- A command that leaves the table, and no replacement behind it. -/
theorem next_settled {next : Option (List Op)} (h : P table loaded)
    (hnext : ∀ ops ∈ next, ∀ op ∈ ops, op.Settled) (hrest : ∀ op ∈ rest, op.Settled) :
    TableInv P table loaded ((next.map (· ++ rest)).getD []) := by
  cases next with
  | none => exact h
  | some ops =>
    refine of_settled h fun op hop => ?_
    exact (List.mem_append.mp hop).elim (hnext ops rfl op) (hrest op)

theorem settled_loadFailed {retry : List Setup} :
    ∀ ops ∈ loadFailed retry, ∀ op ∈ ops, op.Settled := by
  cases retry with
  | nil => exact fun ops hops => nomatch hops
  | cons new retry =>
    intro ops hops op hop
    obtain rfl := Option.some.inj hops
    obtain rfl := List.mem_singleton.mp hop
    trivial

/-- **A command keeps the table in order**, if it neither lets old rules stay where new ones are
loaded nor loses rules that the record asks for. -/
theorem exec {ok : Bool} {k : Kernel} {op : Op} (hnew : ∀ new, P [new] (some new))
    (hnone : P [] none) (h : TableInv P k.table loaded (op :: rest)) (hkeeps : ¬op.KeepsOld ok k)
    (hloses : op.LosesOld ok → P [] loaded) :
    TableInv P (op.exec ok k).1.table (SetupState.record ok loaded op)
      (((op.exec ok k).2.map (· ++ rest)).getD []) := by
  obtain ⟨hfits, hrest⟩ := h
  have hsettled {k' : Kernel} {next : Option (List Op)} (htable : k'.table = k.table)
      (hinOrder : P k.table loaded) (hnext : ∀ ops ∈ next, ∀ op ∈ ops, op.Settled) :
      TableInv P k'.table loaded ((next.map (· ++ rest)).getD []) :=
    htable ▸ next_settled hinOrder hnext hrest
  cases op with
  | addIpRoute f | addIpRule f | delIpRule f | delIpRoute f =>
    exact hsettled rfl hfits fun ops hops op hop => Op.settled_of_family
      (Op.family_exec hops op hop)
  | ipRouteAdd f | ipRuleAdd f | ipRuleAddPlain f | ipRuleDel f | ipRouteDel f =>
    refine hsettled ?_ hfits fun ops hops op hop => Op.settled_of_family
      (Op.family_exec hops op hop)
    simp only [Op.exec]
    split_ifs <;> simp
  | modules => cases ok <;> exact hsettled rfl hfits (by simp [Op.exec])
  | delNftTable =>
    refine hsettled rfl hfits fun ops hops op hop => ?_
    simp only [Op.exec, Option.mem_some_iff] at hops
    split_ifs at hops
    · obtain rfl := List.mem_singleton.mp (hops ▸ hop)
      trivial
    · exact absurd (hops ▸ hop) (List.not_mem_nil)
  | nftDelete =>
    cases ok with
    | true => exact of_settled hnone hrest
    | false => exact hfits
  | loadNftTable new retry =>
    cases ok with
    | true => exact ⟨hfits, hrest⟩
    | false => exact next_settled hfits settled_loadFailed hrest
  | hasNftTable new retry =>
    cases hlooked : ok && !k.table.isEmpty with
    | true =>
      simp only [Op.exec, hlooked, if_true]
      exact ⟨hfits, hrest⟩
    | false =>
      have hgone : k.table = [] := by
        by_contra htable
        exact hkeeps ⟨by simpa [htable] using hlooked, htable⟩
      have hmissing : P [] loaded := hgone ▸ hfits
      simp only [Op.exec, hlooked, Bool.false_eq_true, if_false]
      exact ⟨⟨hgone, hmissing⟩, hrest⟩
  | nftList new retry =>
    cases ok with
    | true => exact ⟨⟨hfits, hfits⟩, hrest⟩
    | false => exact ⟨⟨hfits, hloses rfl⟩, hrest⟩
  | nftReplace new backup retry =>
    cases ok with
    | true => exact ⟨⟨rfl, hfits.2⟩, hrest⟩
    | false => exact ⟨⟨not_not.mp fun htable => hkeeps ⟨rfl, htable⟩, hfits.2⟩, hrest⟩
  | nftLoad new backup retry =>
    obtain ⟨hgone, hbackup⟩ := hfits
    cases ok with
    | true =>
      have hloaded : P (k.table ++ [new]) (some new) := by
        rw [hgone]
        exact hnew new
      exact of_settled hloaded hrest
    | false =>
      cases backup with
      | nil => exact next_settled (hgone ▸ hbackup) settled_loadFailed hrest
      | cons old backup => exact ⟨⟨hgone, hbackup⟩, hrest⟩
  | nftRollback backup retry =>
    obtain ⟨hgone, hbackup⟩ := hfits
    cases ok with
    | true =>
      have hback : P (k.table ++ backup) loaded := by
        rw [hgone]
        exact hbackup
      exact next_settled hback settled_loadFailed hrest
    | false =>
      have hmissing : P k.table loaded := by
        rw [hgone]
        exact hloses rfl
      exact next_settled hmissing settled_loadFailed hrest

end TableInv

namespace SetupState

/-- A step of the scripts keeps the table in order. -/
theorem tableInv_step {P : List Setup → Option Setup → Prop} (hnew : ∀ new, P [new] (some new))
    (hnone : P [] none) {st st' : SetupState} {a : SetupAction}
    (h : TableInv P st.kernel.table st.loaded st.running) (hkeeps : ¬KeepsOld st a)
    (hloses : LosesOld st a → P [] st.loaded) (hstep : st.step a = some st') :
    TableInv P st'.kernel.table st'.loaded st'.running := by
  have hinOrder (hidle : st.running = []) : P st.kernel.table st.loaded := by
    rwa [hidle] at h
  obtain ⟨settings, rfl, hidle, rfl⟩ | ⟨rfl, hidle, rfl⟩ | ⟨ok, op, rest, rfl, hrunning, rfl⟩ |
    ⟨rfl, rfl⟩ | ⟨f, rules, rfl, -, rfl⟩ := step_cases hstep
  · exact .of_settled (hinOrder hidle) (by simp [setupScript, Op.Settled])
  · exact .of_settled (hinOrder hidle) (by simp [unsetupScript, Op.Settled])
  · have hhead : op ∈ st.running.head? := by rw [hrunning]; rfl
    exact (hrunning ▸ h).exec hnew hnone (fun hold => hkeeps ⟨op, hhead, hold⟩)
      fun hlost => hloses ⟨op, hhead, hlost⟩
  · obtain hinOrder | ⟨hgone, hreplacing⟩ := h.inOrder_or
    · exact hinOrder
    · have hmissing : P st.kernel.table st.loaded := by
        rw [hgone]
        exact hloses hreplacing
      exact hmissing
  · rwa [Kernel.table_setRouting]

theorem tableInv_of_steps {P : List Setup → Option Setup → Prop}
    (hnew : ∀ new, P [new] (some new)) (hnone : P [] none) {C : SetupState → SetupAction → Prop}
    (hkeeps : ∀ st a, C st a → ¬KeepsOld st a)
    (hloses : ∀ st a, C st a → LosesOld st a → P [] st.loaded) {v4 v6 : List IpRule}
    {st : SetupState} (h : Steps step C (init v4 v6) st) :
    TableInv P st.kernel.table st.loaded st.running := by
  have hinit : TableInv P (init v4 v6).kernel.table (init v4 v6).loaded (init v4 v6).running :=
    hnone
  exact h.invariant (I := fun st => TableInv P st.kernel.table st.loaded st.running) hinit
    fun st a _ h ha hstep => tableInv_step hnew hnone h (hkeeps st a ha) (hloses st a ha) hstep

/-- **The table is the one loaded last.** As long as the scripts find the table where it is and can
delete it before a load, then in all runs of them, whatever else fails, whatever rules the kernel
refuses and wherever they are killed, the table holds the rules that were loaded last and not taken
down, or it is missing: rules never pile up. If besides no backup and no rollback fails, and no
script is killed between the deletion and the load, it is missing only there: a load that is refused
leaves what was there. -/
theorem table_eq_loaded {v4 v6 : List IpRule} {st : SetupState}
    (h : Steps step (fun st a => ¬KeepsOld st a) (init v4 v6) st) :
    (st.kernel.table = [] ∨ st.kernel.table = st.loaded.toList) ∧
    (Steps step (fun st a => ¬KeepsOld st a ∧ ¬LosesOld st a) (init v4 v6) st →
      ¬Replacing st → st.kernel.table = st.loaded.toList) := by
  constructor
  · have hinv := tableInv_of_steps
      (P := fun table loaded => table = [] ∨ table = Option.toList loaded)
      (fun _ => .inr rfl) (.inl rfl) (fun _ _ hkeeps => hkeeps) (fun _ _ _ _ => .inl rfl) h
    exact hinv.inOrder_or.elim id fun hgone => .inl hgone.1
  · intro h hreplacing
    have hinv := tableInv_of_steps (P := fun table loaded => table = Option.toList loaded)
      (fun _ => rfl) rfl (fun _ _ ha => ha.1) (fun _ _ ha hlost => absurd hlost ha.2) h
    exact hinv.inOrder_or.elim id fun hgone => absurd hgone.2 hreplacing

/-- Settings that refuse foreign QUIC, with the action left to the script. -/
def quicSettings (action : BanAction) : ScriptSettings where
  setup := { ingressIfaces := ["br-lan"], localIp := [], banForeignQuic := some action }
  auto := true

/-- The first setup finds no table, and the kernel refuses `reject`; the second one finds the table
and is refused all rules. -/
def oldKernel : List SetupAction :=
  .setup (quicSettings .reject) :: List.replicate 11 (SetupAction.exec true) ++
    [SetupAction.exec false] ++ List.replicate 3 (SetupAction.exec true) ++
  .setup (quicSettings .reject) :: List.replicate 9 (SetupAction.exec true) ++
    [SetupAction.exec false] ++ List.replicate 5 (SetupAction.exec true) ++
    [SetupAction.exec false, SetupAction.exec true]

/-- No command fails but a load. -/
def refusedOnly (st : SetupState) : SetupAction → Bool
  | .exec false =>
    match st.running with
    | .nftLoad _ _ _ :: _ => true
    | _ => false
  | .kill => false
  | _ => true

theorem of_refusedOnly (st : SetupState) (a : SetupAction) (h : refusedOnly st a = true) :
    ¬KeepsOld st a ∧ ¬LosesOld st a := by
  cases a with
  | setup | unsetup | otherRules => exact ⟨id, id⟩
  | kill => cases h
  | exec ok =>
    cases ok with
    | true =>
      refine ⟨fun ⟨op, _, hkeeps⟩ => ?_, fun ⟨op, _, hloses⟩ => ?_⟩
      · cases op <;> first | exact hkeeps | cases hkeeps.1
      · cases op <;> cases hloses
    | false =>
      cases hrunning : st.running with
      | nil => simp [refusedOnly, hrunning] at h
      | cons op rest =>
        cases op with
        | nftLoad => simp [KeepsOld, LosesOld, hrunning, Op.KeepsOld, Op.LosesOld]
        | _ => simp [refusedOnly, hrunning] at h

/-- The rules with `drop` are loaded, and left there by the setup that fails. -/
theorem table_eq_loaded_oldKernel :
    ∃ st, Steps step (fun st a => ¬KeepsOld st a ∧ ¬LosesOld st a) (init [] []) st ∧
      st.kernel.table = [(quicSettings .drop).setup] := by
  obtain ⟨st, hsteps, hloaded, hrunning⟩ : ∃ st,
      Steps step (fun st a => ¬KeepsOld st a ∧ ¬LosesOld st a) (init [] []) st ∧
      st.loaded = some (quicSettings .drop).setup ∧ st.running.isEmpty = true :=
    exists_steps_of_guarded_run (l := oldKernel) of_refusedOnly (by decide +kernel)
  refine ⟨st, hsteps, ?_⟩
  have htable := (table_eq_loaded (hsteps.mono fun _ _ ha => ha.1)).2 hsteps fun hreplacing => by
    obtain ⟨op, hhead, -⟩ := hreplacing
    rw [List.isEmpty_iff.mp hrunning] at hhead
    cases hhead
  rw [htable, hloaded]
  rfl

/-- When the table cannot be deleted, the old rules stay beside the new ones. -/
theorem table_piled_up :
    ∃ st, run step (init [] [])
        (.setup plainSettings :: List.replicate 12 (SetupAction.exec true) ++
          .setup plainSettings :: List.replicate 8 (SetupAction.exec true) ++
          [SetupAction.exec false, SetupAction.exec true]) = some st ∧
      st.kernel.table = [plainSettings.setup, plainSettings.setup] :=
  ⟨_, rfl, rfl⟩

end SetupState

end XtpRs.Scripts
