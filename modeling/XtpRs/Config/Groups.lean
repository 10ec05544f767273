import XtpRs.Config.Validate

/-!
# Validation and construction agree on groups

`validate` counts an upstream whose `groups` are missing or empty in the group `default`;
`build_upstream_set` puts it there only when `groups` are missing. The two agree on which groups
have an upstream except for `groups = []`, where the group `default` may be counted and not built.

## Main definitions

* `Config.Named`: the groups that a configuration refers to.
* `UpstreamSet.Usable`: the group has members and every choice from it yields one.

## Main results

* `Config.groups_agree_iff`: exactly when every counted group is usable.
* `Config.default_counted_not_built`: a configuration whose group `default` is counted and empty.
-/

namespace XtpRs

open Lib Upstream

/-- The group has members, and a choice from it yields one of the upstreams whatever the set
remembers, whatever the scores are and however the draws fall. -/
def Upstream.UpstreamSet.Usable (set : UpstreamSet) (group : Str) : Prop :=
  (∃ items, set.groups.lookup group = some items ∧ items ≠ []) ∧
    ∀ current reads, ({ set with current }.pickFromGroup group reads).1.isSome = true

theorem Upstream.UpstreamSet.usable_iff {set : UpstreamSet} {group : Str} :
    set.Usable group ↔ (set.groups.lookup group).getD [] ≠ [] := by
  constructor
  · rintro ⟨⟨items, hlookup, hne⟩, -⟩
    rw [hlookup]
    exact hne
  · intro hne
    cases hlookup : set.groups.lookup group with
    | none =>
      rw [hlookup] at hne
      exact absurd rfl hne
    | some items =>
      rw [hlookup] at hne
      refine ⟨⟨items, hlookup, hne⟩, fun current reads => ?_⟩
      simp only [UpstreamSet.pickFromGroup, hlookup]
      exact UpstreamSet.isSome_pickWeighted hne

namespace Config

variable {parseIpNet : Str → Option IpNet} {c : Config} {set : UpstreamSet} {group : Str}

/-- A group of `group_count` has the number of its mentions. -/
theorem getD_lookup_groupCount (c : Config) (group : Str) :
    (c.groupCount.lookup group).getD 0 =
      ((c.upstream.flatMap UpstreamConfig.countedGroups).filter fun g => g = group).length := by
  have hlength : ∀ (l : List Str) (n : ℕ), l.foldl (fun count _ => count + 1) n = n + l.length := by
    intro l
    induction l with
    | nil => intro n; rfl
    | cons g l ih =>
      intro n
      rw [List.foldl_cons, ih, List.length_cons]
      omega
  have hcount := HashMap.getD_lookup_foldl_upsert (∅ : HashMap Str ℕ) 0 (fun g : Str => g)
    (fun _ => (· + 1)) (c.upstream.flatMap UpstreamConfig.countedGroups) group
  rw [hlength] at hcount
  simpa [groupCount] using hcount

/-- The groups that `validate` counts as non-empty. -/
theorem counts_iff : c.counts group = true ↔ ∃ up ∈ c.upstream, group ∈ up.countedGroups := by
  rw [counts, bne_iff_ne, getD_lookup_groupCount, Ne, List.length_eq_zero_iff,
    List.filter_eq_nil_iff]
  simp [and_comm]

/-- The groups that `build_upstream_set` fills. -/
theorem usable_buildUpstreamSet_iff (h : c.buildUpstreamSet = .ok set) :
    set.Usable group ↔ ∃ up ∈ c.upstream, group ∈ up.groups.getD [defaultGroup] := by
  have hnew := new_of_buildUpstreamSet h
  have hitems : memberships set.allItems =
      c.upstream.flatMap fun up => (up.groups.getD [defaultGroup]).map fun g =>
        (g, (up.toUpstream.setQuicWeight c.quicWeight).setQuicStaleSecs c.quicStaleSecs) := by
    rw [UpstreamSet.allItems_of_new hnew]
    simp [memberships, List.flatMap_map, UpstreamConfig.toUpstream, Upstream.setQuicWeight,
      Upstream.setQuicStaleSecs]
  rw [UpstreamSet.usable_iff, UpstreamSet.lookup_groups hnew, Ne, List.map_eq_nil_iff,
    List.filter_eq_nil_iff, hitems]
  simp only [List.mem_flatMap, List.mem_map]
  constructor
  · intro hne
    by_contra hnone
    refine hne ?_
    rintro e ⟨up, hup, g, hg, rfl⟩ heq
    obtain rfl : g = group := by simpa using heq
    exact hnone ⟨up, hup, hg⟩
  · rintro ⟨up, hup, hg⟩ hall
    exact hall _ ⟨up, hup, group, hg, rfl⟩ (by simp)

/-- The groups that a configuration refers to: `default` when it is counted, and those of the three
route tables. -/
inductive Named (c : Config) : Str → Prop
  | default (h : c.hasDefault = true) : Named c defaultGroup
  | clientRoutes {ip group : Str} (h : (ip, group) ∈ c.clientRoutes.toList) : Named c group
  | clientDomainRoutes {ip domain group : Str} {routes : HashMap Str Str}
      (h : (ip, routes) ∈ c.clientDomainRoutes.toList) (h' : (domain, group) ∈ routes.toList) :
      Named c group
  | clientDstIpRoutes {ip dst group : Str} {routes : HashMap Str Str}
      (h : (ip, routes) ∈ c.clientDstIpRoutes.toList) (h' : (dst, group) ∈ routes.toList) :
      Named c group

/-- A group in the map of counts has been counted. -/
theorem counts_of_hasDefault (h : c.hasDefault = true) : c.counts defaultGroup = true := by
  have hcount := HashMap.isSome_lookup_foldl_upsert (∅ : HashMap Str ℕ) 0 (fun g : Str => g)
    (fun _ => (· + 1)) (c.upstream.flatMap UpstreamConfig.countedGroups) defaultGroup
  rcases hcount.mp h with hempty | ⟨group, hmem, rfl⟩
  · cases hempty
  · exact counts_iff.mpr (List.mem_flatMap.mp hmem)

/-- **Named groups.** Every group that an accepted configuration refers to is counted. -/
theorem counts_of_named (hv : c.validate parseIpNet = .ok ()) (h : c.Named group) :
    c.counts group = true := by
  have hgroups := checkGroups_of_validate hv
  rw [checkGroups, bind_unit_eq_ok_iff, bind_unit_eq_ok_iff, bind_unit_eq_ok_iff,
    checkAll_eq_ok_iff, checkAll_eq_ok_iff, checkAll_eq_ok_iff] at hgroups
  obtain ⟨-, hclient, hdomain, hdst⟩ := hgroups
  cases h with
  | default h => exact counts_of_hasDefault h
  | clientRoutes h =>
    have hroute := hclient _ h
    rw [checkClientRoute, bind_unit_eq_ok_iff, ensure_eq_ok_iff, ensure_eq_ok_iff] at hroute
    exact hroute.2
  | clientDomainRoutes h h' =>
    have hroutes := hdomain _ h
    rw [checkClientDomainRoute, bind_unit_eq_ok_iff, checkAll_eq_ok_iff] at hroutes
    exact ensure_eq_ok_iff.mp (hroutes.2 _ h')
  | clientDstIpRoutes h h' =>
    have hroutes := hdst _ h
    rw [checkClientDstIpRoute, bind_unit_eq_ok_iff, checkAll_eq_ok_iff] at hroutes
    have hroute := hroutes.2 _ h'
    rw [bind_unit_eq_ok_iff, ensure_eq_ok_iff, ensure_eq_ok_iff] at hroute
    exact hroute.2

/-- An upstream with `groups = []` is accompanied by one in the group `default`. -/
def EmptyGroupsCovered (c : Config) : Prop :=
  (∃ up ∈ c.upstream, up.groups = some []) →
    ∃ up ∈ c.upstream, up.groups = none ∨ ∃ groups, up.groups = some groups ∧ defaultGroup ∈ groups

theorem mem_countedGroups_iff {up : UpstreamConfig} :
    group ∈ up.countedGroups ↔
      group ∈ up.groups.getD [defaultGroup] ∨ up.groups = some [] ∧ group = defaultGroup := by
  unfold UpstreamConfig.countedGroups
  cases up.groups with
  | none => simp
  | some groups =>
    by_cases hempty : groups = []
    · simp [hempty]
    · simp [hempty]

/-- **Validation and construction agree on groups** exactly when the configuration has an upstream
in the group `default` as soon as it has one with `groups = []`. The groups that the configuration
names are counted in any case. -/
theorem groups_agree_iff (hv : c.validate parseIpNet = .ok ()) (hb : c.buildUpstreamSet = .ok set) :
    (∀ group, c.Named group → c.counts group = true) ∧
    ((∀ group, c.counts group = true → set.Usable group) ↔ c.EmptyGroupsCovered) := by
  refine ⟨fun group hnamed => counts_of_named hv hnamed, ?_, ?_⟩
  · rintro hall ⟨up, hup, hgroups⟩
    have hdefault : c.counts defaultGroup = true :=
      counts_iff.mpr ⟨up, hup, mem_countedGroups_iff.mpr (.inr ⟨hgroups, rfl⟩)⟩
    obtain ⟨up', hup', hmem⟩ := (usable_buildUpstreamSet_iff hb).mp (hall _ hdefault)
    refine ⟨up', hup', ?_⟩
    cases hgroups' : up'.groups with
    | none => exact .inl rfl
    | some groups =>
      rw [hgroups'] at hmem
      exact .inr ⟨groups, rfl, hmem⟩
  · intro hcovered group hcounts
    obtain ⟨up, hup, hmem⟩ := counts_iff.mp hcounts
    rw [usable_buildUpstreamSet_iff hb]
    rcases mem_countedGroups_iff.mp hmem with hmem | ⟨hgroups, rfl⟩
    · exact ⟨up, hup, hmem⟩
    · obtain ⟨up', hup', hdefault⟩ := hcovered ⟨up, hup, hgroups⟩
      refine ⟨up', hup', ?_⟩
      rcases hdefault with hnone | ⟨groups, hsome, hmem'⟩
      · simp [hnone]
      · simpa [hsome] using hmem'

/-- One upstream without `groups`, to which the route of a client leads. -/
def exampleConfig : Config where
  upstream := [{ id := [0x61], addr := .v4 ⟨127, 0, 0, 1⟩ 1080 }]
  clientRoutes := AList.singleton [0x3a, 0x3a] defaultGroup

theorem groups_agree_exampleConfig :
    ∃ set, exampleConfig.buildUpstreamSet = .ok set ∧
      exampleConfig.counts defaultGroup = true ∧ set.Usable defaultGroup := by
  have hv : exampleConfig.validate (fun _ => none) = .ok () := by decide +kernel
  obtain ⟨set, hb⟩ : ∃ set, exampleConfig.buildUpstreamSet = .ok set := ⟨_, rfl⟩
  obtain ⟨hnamed, hiff⟩ := groups_agree_iff hv hb
  have hroute : (([0x3a, 0x3a] : Str), defaultGroup) ∈ exampleConfig.clientRoutes.toList := by
    decide +kernel
  have hcounts : exampleConfig.counts defaultGroup = true := hnamed _ (.clientRoutes hroute)
  exact ⟨set, hb, hcounts, hiff.mpr (fun _ => ⟨_, List.mem_cons_self, .inl rfl⟩) _ hcounts⟩

/-- One upstream with `groups = []`. -/
def emptyGroupsConfig : Config where
  upstream := [{ id := [0x61], addr := .v4 ⟨127, 0, 0, 1⟩ 1080, groups := some [] }]

/-- The configuration is accepted and built, its group `default` is counted, and no upstream is
ever chosen from it. -/
theorem default_counted_not_built :
    (∀ parseIpNet, emptyGroupsConfig.validate parseIpNet = .ok ()) ∧
      ∃ set, emptyGroupsConfig.buildUpstreamSet = .ok set ∧
        emptyGroupsConfig.hasDefault = true ∧ emptyGroupsConfig.counts defaultGroup = true ∧
        ¬ set.Usable defaultGroup ∧
        ∀ reads, (set.pickFromGroup defaultGroup reads).1 = none := by
  refine ⟨fun parseIpNet => ?_, _, rfl, by decide +kernel, by decide +kernel, ?_, fun reads => rfl⟩
  · have hlimits : emptyGroupsConfig.checkLimits = .ok () := by decide +kernel
    rw [validate, hlimits]
    rfl
  · rintro ⟨⟨items, hitems, -⟩, -⟩
    cases hitems

end Config

end XtpRs
