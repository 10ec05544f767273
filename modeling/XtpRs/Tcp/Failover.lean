import XtpRs.Config.Validate

/-!
# Failover

`try_connect_socks5_group` of `src/tcp.rs` connects through an upstream of a group; when an attempt
fails it tries another one, and when the group is used up it goes over to the group `default`. The
loop has no counter. What other connections do to the remembered upstreams between two choices, the
reads of each choice and the outcome of each attempt come from outside. Penalties change only the
scores that later choices read, and are left out.

## Main definitions

* `Failover.iteration`, `Failover.tryConnectSocks5Group`: one iteration of the loop, and the loop.
* `UniqueIds`: no two upstreams of a set share an id.

## Main results

* `Failover.iteration_cases`: what one iteration can do.
* `Failover.tryConnect_exhaustive`: the loop ends, dials nothing twice in a phase, and fails only
  when `default` is used up.
-/

namespace XtpRs.Tcp

open Lib Upstream

namespace Failover

/-- What an iteration depends on from outside: the remembered upstreams as other connections have
left them, the reads of the choice, and whether the attempt succeeds. -/
structure Round where
  current : HashMap Str (Option Str)
  reads : UpstreamSet.PickReads
  connects : Bool

/-- An upstream that was dialled, and whether it could be connected to. -/
abbrev Attempt := Upstream × Bool

/-- The local variables of the loop: the group of the current phase, the set `failed`, and the
attempts of the current phase and of those before it. -/
structure State where
  group : Str
  failed : Finset Str
  attempts : List Attempt := []
  earlier : List (List Attempt) := []

/-- What the loop returns, an upstream or the failure of all, with the attempts of every phase. -/
structure Result where
  upstream : Option Upstream
  phases : List (List Attempt)

variable (set : UpstreamSet)

/-- The choice of an iteration. -/
def pick (s : State) (round : Round) : Option Upstream :=
  let set := { set with current := round.current }
  if s.failed = ∅ then (set.pickFromGroup s.group round.reads).1
  else (set.pickExcludingManyFromGroup s.group s.failed round.reads).1

/-- One iteration of the loop: a result, or the variables of the next iteration. -/
def iteration (s : State) (round : Round) : Result ⊕ State :=
  match pick set s round with
  | none =>
    if s.group = defaultGroup then .inl { upstream := none, phases := s.earlier ++ [s.attempts] }
    else .inr { group := defaultGroup, failed := ∅, earlier := s.earlier ++ [s.attempts] }
  | some up =>
    if round.connects then
      .inl { upstream := some up, phases := s.earlier ++ [s.attempts ++ [(up, true)]] }
    else
      .inr { s with failed := insert up.id s.failed, attempts := s.attempts ++ [(up, false)] }

/-- The loop, for at most so many iterations. -/
def loop : ℕ → (ℕ → Round) → State → Option Result
  | 0, _, _ => none
  | fuel + 1, rounds, s =>
    match iteration set s (rounds 0) with
    | .inl result => some result
    | .inr s => loop fuel (fun i => rounds (i + 1)) s

/-- `try_connect_socks5_group`, for at most so many iterations. -/
def tryConnectSocks5Group (fuel : ℕ) (rounds : ℕ → Round) (group : Str) (exclude : Option Str) :
    Option Result :=
  loop set fuel rounds { group, failed := exclude.toFinset }

/-- The number of attempts. -/
def Result.attempts (result : Result) : ℕ := (result.phases.map List.length).sum

end Failover

/-- The members of a group; a group that does not exist has none. -/
def members (set : UpstreamSet) (group : Str) : List Upstream :=
  (set.groups.lookup group).getD []

/-- No two upstreams in the groups of a set share an id. -/
def UniqueIds (set : UpstreamSet) : Prop :=
  ∀ g, ∀ a ∈ members set g, ∀ g', ∀ b ∈ members set g', a.id = b.id → a = b

/-- A set made of upstreams with distinct ids has unique ids. -/
theorem uniqueIds_of_new {items : List Upstream} {tolerance quicWeight : UInt32}
    {quicStaleSecs : UInt64} {set : UpstreamSet}
    (h : UpstreamSet.new items tolerance quicWeight quicStaleSecs = .ok set)
    (hids : (items.map Upstream.id).Nodup) : UniqueIds set := by
  have hmem (g : Str) : ∀ a ∈ members set g, a ∈ set.allItems := by
    intro a ha
    rw [members, UpstreamSet.lookup_groups h] at ha
    obtain ⟨e, he, rfl⟩ := List.mem_map.mp ha
    obtain ⟨up, hup, hmap⟩ := List.mem_flatMap.mp (List.mem_of_mem_filter he)
    obtain ⟨-, -, rfl⟩ := List.mem_map.mp hmap
    exact hup
  have hall : (set.allItems.map Upstream.id).Nodup := by
    rw [UpstreamSet.allItems_of_new h, List.map_map]
    exact hids
  intro g a ha g' b hb heq
  exact List.inj_on_of_nodup_map hall (hmem g a ha) (hmem g' b hb) heq

namespace Failover

variable {set : UpstreamSet} {group : Str} {exclude : Option Str} {s s' : State} {round : Round}
  {result : Result}

/-- The members of the current group that may still be dialled. -/
def candidates (set : UpstreamSet) (s : State) : List Upstream :=
  (members set s.group).filter fun up => up.id ∉ s.failed

/-- The attempts of a phase go to members of its group, to each at most once. -/
structure IsPhase (set : UpstreamSet) (group : Str) (attempts : List Attempt) : Prop where
  distinct : (attempts.map fun a => a.1.id).Nodup
  mem : ∀ a ∈ attempts, a.1 ∈ members set group

/-- What the loop for a group promises of its result. -/
structure Exhaustive (set : UpstreamSet) (group : Str) (exclude : Option Str) (result : Result) :
    Prop where
  phases : (∃ first, result.phases = [first] ∧ IsPhase set group first) ∨
    group ≠ defaultGroup ∧ ∃ first second, result.phases = [first, second] ∧
      IsPhase set group first ∧ IsPhase set defaultGroup second
  attempts_le : result.attempts ≤ (members set group).length + (members set defaultGroup).length
  belongs : ∀ up, result.upstream = some up → up ∈ members set group ∨ up ∈ members set defaultGroup
  exhausted : result.upstream = none → ∀ up ∈ members set defaultGroup,
    (∃ last, result.phases.getLast? = some last ∧ (up, false) ∈ last) ∨
      group = defaultGroup ∧ exclude = some up.id

/-! ## One iteration -/

/-- The choice of an iteration is a candidate, and there is one while there are candidates. -/
theorem pick_spec (set : UpstreamSet) (s : State) (round : Round) :
    (∃ up ∈ candidates set s, pick set s round = some up) ∨
      candidates set s = [] ∧ pick set s round = none := by
  have hchoice (set' : UpstreamSet) (items : List Upstream) :
      (∃ up ∈ items, (set'.pickWeighted items s.group round.reads).1 = some up) ∨
        items = [] ∧ (set'.pickWeighted items s.group round.reads).1 = none := by
    cases hpick : (set'.pickWeighted items s.group round.reads).1 with
    | some up => exact .inl ⟨up, UpstreamSet.mem_of_pickWeighted hpick, rfl⟩
    | none =>
      refine .inr ⟨?_, rfl⟩
      by_contra hne
      have hsome : (set'.pickWeighted items s.group round.reads).1.isSome = true :=
        UpstreamSet.isSome_pickWeighted hne
      rw [hpick] at hsome
      cases hsome
  simp only [pick, candidates, members, UpstreamSet.pickFromGroup,
    UpstreamSet.pickExcludingManyFromGroup]
  cases set.groups.lookup s.group with
  | none => exact .inr ⟨rfl, by split_ifs <;> rfl⟩
  | some items =>
    dsimp only [Option.getD_some]
    split_ifs with hfailed hempty
    · have hall : (items.filter fun up => up.id ∉ s.failed) = items :=
        List.filter_eq_self.mpr fun up _ => by simp [hfailed]
      rw [hall]
      exact hchoice _ items
    · exact .inr ⟨List.isEmpty_iff.mp hempty, rfl⟩
    · exact hchoice _ _

/-- What an iteration can do: return the failure of all, go over to `default`, connect to a
candidate, or fail to. -/
theorem iteration_cases (set : UpstreamSet) (s : State) (round : Round) :
    (candidates set s = [] ∧ s.group = defaultGroup ∧ iteration set s round =
        .inl { upstream := none, phases := s.earlier ++ [s.attempts] }) ∨
    (candidates set s = [] ∧ s.group ≠ defaultGroup ∧ iteration set s round =
        .inr { group := defaultGroup, failed := ∅, earlier := s.earlier ++ [s.attempts] }) ∨
    (∃ up ∈ candidates set s, iteration set s round =
        .inl { upstream := some up, phases := s.earlier ++ [s.attempts ++ [(up, true)]] }) ∨
    (∃ up ∈ candidates set s, iteration set s round =
        .inr { s with
          failed := insert up.id s.failed
          attempts := s.attempts ++ [(up, false)] }) := by
  rcases pick_spec set s round with ⟨up, hup, hpick⟩ | ⟨hnone, hpick⟩
  · cases hconnects : round.connects with
    | true => exact .inr (.inr (.inl ⟨up, hup, by simp [iteration, hpick, hconnects]⟩))
    | false => exact .inr (.inr (.inr ⟨up, hup, by simp [iteration, hpick, hconnects]⟩))
  · by_cases hgroup : s.group = defaultGroup
    · exact .inl ⟨hnone, hgroup, by simp [iteration, hpick, hgroup]⟩
    · exact .inr (.inl ⟨hnone, hgroup, by simp [iteration, hpick, hgroup]⟩)

/-- Dialling a candidate without success leaves fewer candidates. -/
theorem candidates_lt {up : Upstream} (hup : up ∈ candidates set s) (attempts : List Attempt) :
    (candidates set { s with failed := insert up.id s.failed, attempts }).length <
      (candidates set s).length := by
  have hfilter : candidates set { s with failed := insert up.id s.failed, attempts } =
      (candidates set s).filter fun other => other.id ≠ up.id := by
    rw [candidates, candidates, List.filter_filter]
    refine List.filter_congr fun other _ => ?_
    simp
  rw [hfilter]
  exact List.length_filter_lt_length_iff_exists.mpr ⟨up, hup, by simp⟩

theorem candidates_le (set : UpstreamSet) (s : State) :
    (candidates set s).length ≤ (members set s.group).length :=
  List.length_filter_le _ _

/-! ## All iterations -/

/-- The upstreams that may still be dialled in the phases after the current one. -/
def later (set : UpstreamSet) (s : State) : ℕ :=
  if s.group = defaultGroup then 0 else (members set defaultGroup).length

/-- The bound on the iterations that are left. -/
def pending (set : UpstreamSet) (s : State) : ℕ :=
  (candidates set s).length + (if s.group = defaultGroup then 0 else later set s + 1) + 1

/-- What holds between two iterations: which phase the loop is in, what the set `failed` consists
of, and how many attempts are left. -/
structure Inv (set : UpstreamSet) (group : Str) (exclude : Option Str) (s : State) : Prop where
  phase : s.group = group ∧ s.earlier = [] ∨
    group ≠ defaultGroup ∧ s.group = defaultGroup ∧
      ∃ first, s.earlier = [first] ∧ IsPhase set group first
  current : IsPhase set s.group s.attempts
  failed : s.failed = (if s.earlier = [] then exclude.toFinset else ∅) ∪
    (s.attempts.map fun a => a.1.id).toFinset
  refused : ∀ a ∈ s.attempts, a.2 = false
  bound : (s.earlier.map List.length).sum + s.attempts.length + (candidates set s).length +
    later set s ≤ (members set group).length + (members set defaultGroup).length

theorem inv_start (set : UpstreamSet) (group : Str) (exclude : Option Str) :
    Inv set group exclude { group, failed := exclude.toFinset } where
  phase := .inl ⟨rfl, rfl⟩
  current := ⟨List.nodup_nil, nofun⟩
  failed := by simp
  refused := nofun
  bound := by
    have hle := candidates_le set { group, failed := exclude.toFinset }
    simp only [later]
    split_ifs
    · exact (Nat.add_le_add_right (by simpa using hle) 0).trans (Nat.le_add_right _ _)
    · exact Nat.add_le_add_right (by simpa using hle) _

/-- A candidate has not been dialled in the phase, so one more attempt keeps it a phase. -/
theorem IsPhase.append {up : Upstream} (hs : Inv set group exclude s)
    (hup : up ∈ candidates set s) (connected : Bool) :
    IsPhase set s.group (s.attempts ++ [(up, connected)]) := by
  obtain ⟨hmem, hnew⟩ := List.mem_filter.mp hup
  have hnew' : up.id ∉ s.attempts.map fun a => a.1.id := by
    intro hold
    simp only [decide_eq_true_eq, hs.failed, Finset.mem_union, List.mem_toFinset] at hnew
    exact hnew (.inr hold)
  constructor
  · rw [List.map_append, List.map_singleton, List.nodup_append_comm]
    exact List.nodup_cons.mpr ⟨hnew', hs.current.distinct⟩
  · intro a ha
    rcases List.mem_append.mp ha with ha | ha
    · exact hs.current.mem a ha
    · rw [List.mem_singleton.mp ha]
      exact hmem

/-- An attempt that fails keeps the invariant. -/
theorem Inv.attempt {up : Upstream} (hs : Inv set group exclude s)
    (hup : up ∈ candidates set s) :
    Inv set group exclude { s with
      failed := insert up.id s.failed
      attempts := s.attempts ++ [(up, false)] } where
  phase := hs.phase
  current := .append hs hup false
  failed := by
    dsimp only
    rw [hs.failed, List.map_append, List.toFinset_append, ← Finset.union_assoc]
    ext id
    simp
  refused := by
    intro a ha
    rcases List.mem_append.mp ha with ha | ha
    · exact hs.refused a ha
    · rw [List.mem_singleton.mp ha]
  bound := by
    have hlt := candidates_lt hup (s.attempts ++ [(up, false)])
    have hbound := hs.bound
    simp only [later, List.length_append, List.length_singleton] at hbound ⊢
    omega

/-- Going over to `default` keeps the invariant. -/
theorem Inv.toDefault (hs : Inv set group exclude s) (hgroup : s.group ≠ defaultGroup) :
    Inv set group exclude
      { group := defaultGroup, failed := ∅, earlier := s.earlier ++ [s.attempts] } := by
  rcases hs.phase with ⟨rfl, hearlier⟩ | ⟨-, hdefault, -⟩
  · refine ⟨.inr ⟨hgroup, rfl, s.attempts, by rw [hearlier, List.nil_append], hs.current⟩,
      ⟨List.nodup_nil, nofun⟩, by simp, nofun, ?_⟩
    have hle := candidates_le set
      { group := defaultGroup, failed := ∅, earlier := s.earlier ++ [s.attempts] }
    have hbound := hs.bound
    simp only [later, if_neg hgroup, ↓reduceIte, hearlier, List.map_nil, List.sum_nil,
      List.nil_append, List.map_singleton, List.sum_singleton, List.length_nil] at hbound hle ⊢
    omega
  · exact absurd hdefault hgroup

theorem pending_toDefault (set : UpstreamSet) (hgroup : s.group ≠ defaultGroup)
    (earlier : List (List Attempt)) :
    pending set { group := defaultGroup, failed := ∅, earlier } < pending set s := by
  have hle := candidates_le set { group := defaultGroup, failed := ∅, earlier }
  simp only [pending, later, if_neg hgroup, ↓reduceIte] at hle ⊢
  omega

/-- The phases of a result, once the last of them is known to be one. -/
theorem Inv.phases {attempts : List Attempt} (hs : Inv set group exclude s)
    (h : IsPhase set s.group attempts) :
    (∃ first, s.earlier ++ [attempts] = [first] ∧ IsPhase set group first) ∨
      group ≠ defaultGroup ∧ ∃ first second, s.earlier ++ [attempts] = [first, second] ∧
        IsPhase set group first ∧ IsPhase set defaultGroup second := by
  rcases hs.phase with ⟨hgroup, hearlier⟩ | ⟨hne, hgroup, first, hearlier, hfirst⟩
  · exact .inl ⟨attempts, by rw [hearlier, List.nil_append], hgroup ▸ h⟩
  · exact .inr ⟨hne, first, attempts, by rw [hearlier]; rfl, hfirst, hgroup ▸ h⟩

/-- The failure of all is returned only when `default` is used up. -/
theorem Inv.exhaustive_of_none (hids : UniqueIds set) (hs : Inv set group exclude s)
    (hnone : candidates set s = []) (hgroup : s.group = defaultGroup) :
    Exhaustive set group exclude { upstream := none, phases := s.earlier ++ [s.attempts] } where
  phases := hs.phases hs.current
  attempts_le := by
    have hbound := hs.bound
    simp only [Result.attempts, List.map_append, List.sum_append, List.map_singleton,
      List.sum_singleton]
    omega
  belongs := nofun
  exhausted := by
    intro _ up hup
    have hfailed : up.id ∈ s.failed := by
      by_contra hnew
      have hcand : up ∈ candidates set s :=
        List.mem_filter.mpr ⟨hgroup ▸ hup, by simpa using hnew⟩
      rw [hnone] at hcand
      cases hcand
    rw [hs.failed, Finset.mem_union, List.mem_toFinset] at hfailed
    rcases hfailed with hexcluded | hdialled
    · refine .inr ?_
      rcases hs.phase with ⟨hfirst, hearlier⟩ | ⟨-, -, first, hearlier, -⟩
      · rw [if_pos hearlier, Option.mem_toFinset] at hexcluded
        exact ⟨hfirst ▸ hgroup, hexcluded⟩
      · simp [hearlier] at hexcluded
    · obtain ⟨a, ha, hid⟩ := List.mem_map.mp hdialled
      have heq : a.1 = up := hids _ _ (hs.current.mem a ha) _ _ hup hid
      refine .inl ⟨s.attempts, by simp, ?_⟩
      rw [← heq, ← hs.refused a ha]
      exact ha

/-- An upstream is returned only when it belongs to one of the groups. -/
theorem Inv.exhaustive_of_some {up : Upstream} (hs : Inv set group exclude s)
    (hup : up ∈ candidates set s) : Exhaustive set group exclude
      { upstream := some up, phases := s.earlier ++ [s.attempts ++ [(up, true)]] } where
  phases := hs.phases (.append hs hup true)
  attempts_le := by
    have hpos := List.length_pos_of_mem hup
    have hbound := hs.bound
    simp only [Result.attempts, List.map_append, List.sum_append, List.map_singleton,
      List.sum_singleton, List.length_append, List.length_singleton]
    omega
  belongs := by
    rintro _ ⟨⟩
    have hmem := List.mem_of_mem_filter hup
    rcases hs.phase with ⟨hgroup, -⟩ | ⟨-, hgroup, -⟩
    · exact .inl (hgroup ▸ hmem)
    · exact .inr (hgroup ▸ hmem)
  exhausted := nofun

/-- The loop ends within the bound, and keeps its promise. -/
theorem exists_loop (hids : UniqueIds set) (fuel : ℕ) (rounds : ℕ → Round)
    (hs : Inv set group exclude s) (hfuel : pending set s ≤ fuel) :
    ∃ result, loop set fuel rounds s = some result ∧ Exhaustive set group exclude result := by
  induction fuel generalizing rounds s with
  | zero => exact absurd hfuel (Nat.not_le.mpr (Nat.succ_pos _))
  | succ fuel ih =>
    rw [loop]
    rcases iteration_cases set s (rounds 0) with ⟨hnone, hgroup, hiter⟩ | ⟨-, hgroup, hiter⟩ |
      ⟨up, hup, hiter⟩ | ⟨up, hup, hiter⟩
    · rw [hiter]
      exact ⟨_, rfl, hs.exhaustive_of_none hids hnone hgroup⟩
    · rw [hiter]
      have hlt := pending_toDefault set hgroup (s.earlier ++ [s.attempts])
      exact ih _ (hs.toDefault hgroup) (by omega)
    · rw [hiter]
      exact ⟨_, rfl, hs.exhaustive_of_some hup⟩
    · rw [hiter]
      have hlt := candidates_lt hup (s.attempts ++ [(up, false)])
      refine ih _ (hs.attempt hup) ?_
      simp only [pending, later] at hfuel ⊢
      omega

/-- **Failover ends and is exhaustive.** Let the ids of the set be unique. For every group, whether
it exists or not, every excluded id, every outcome of the attempts and everything that the choices
read, the loop ends after at most `|group| + |default| + 2` iterations, and with no more attempts
than the two groups have members. It dials members of the group, and after that, unless the group is
`default` itself, members of `default`; in neither phase does it dial one twice. An upstream that is
returned belongs to one of the groups. When the loop fails, every member of `default` was dialled in
the last phase and could not be connected to, but for the excluded one when the group is `default`
itself. -/
theorem tryConnect_exhaustive (hids : UniqueIds set) (group : Str) (exclude : Option Str)
    (rounds : ℕ → Round) :
    ∃ result, tryConnectSocks5Group set
        ((members set group).length + (members set defaultGroup).length + 2) rounds group exclude =
          some result ∧ Exhaustive set group exclude result := by
  refine exists_loop hids _ rounds (inv_start set group exclude) ?_
  have hle := candidates_le set { group, failed := exclude.toFinset }
  simp only [pending, later] at hle ⊢
  split_ifs
  · omega
  · omega

/-- Two upstreams of the group `g`, of which one is in `default` as well. -/
def sharedUpstreams : List Upstream :=
  [{ id := [0x61], addr := .v4 ⟨127, 0, 0, 1⟩ 1080, groups := [[0x67], defaultGroup],
      gain := .finite 1 },
    { id := [0x62], addr := .v4 ⟨127, 0, 0, 1⟩ 1081, groups := [[0x67]], gain := .finite 1 }]

/-- An attempt that fails. -/
def refusedRound : Round where
  current := ∅
  reads := {
    tcpScoreInitialized := fun _ => true
    effectiveScore := fun _ _ => 75
    explore := false
    exploreDraw := 0
    pickDraw := 0 }
  connects := false

/-- All attempts fail, and the upstream in both groups is excluded in the first phase: it is dialled
in the second. -/
theorem tryConnect_exhaustive_allRefused :
    ∃ set result, UpstreamSet.new sharedUpstreams 0 40 180 = .ok set ∧
      tryConnectSocks5Group set 5 (fun _ => refusedRound) [0x67] (some [0x61]) = some result ∧
      result.phases.map List.length = [1, 1] ∧ Exhaustive set [0x67] (some [0x61]) result := by
  obtain ⟨set, hnew, hlength, hphases⟩ : ∃ set, UpstreamSet.new sharedUpstreams 0 40 180 = .ok set ∧
      (members set [0x67]).length + (members set defaultGroup).length + 2 = 5 ∧
      (tryConnectSocks5Group set 5 (fun _ => refusedRound) [0x67] (some [0x61])).map
        (fun result => result.phases.map List.length) = some [1, 1] :=
    ⟨_, rfl, by decide +kernel, by decide +kernel⟩
  have hids : UniqueIds set := uniqueIds_of_new hnew (by decide)
  obtain ⟨result, hresult, hexhaustive⟩ :=
    tryConnect_exhaustive hids [0x67] (some [0x61]) fun _ => refusedRound
  rw [hlength] at hresult
  rw [hresult, Option.map_some, Option.some.injEq] at hphases
  exact ⟨set, result, hnew, hresult, hphases, hexhaustive⟩

end Failover

end XtpRs.Tcp
