import XtpRs.Routing.Groups

/-!
# The order of iteration

`AppState::build` of `src/state.rs` fills the route tables in the order in which the maps of the
configuration are iterated, and that order changes from one start of the process to the next. Two
keys of a map can denote the same network, or the same pattern of domains, in different spellings;
which of them wins then depends on the order.

## Main definitions

* `Config.Reordered`: the same maps, iterated in another order.
* `Config.OrderIndependent`: every order gives the same groups.
* `Config.Unambiguous`: the most specific keys of a connection name one group.

## Main results

* `Config.orderIndependent_iff`: the groups do not depend on the order exactly if the configuration
  is unambiguous.
* `Config.unambiguous_of_distinct`: it is, if no two keys of a map denote the same network or the
  same pattern.
-/

namespace XtpRs

open Lib Routing

variable {parseIpNet : Str → Option IpNet}

/-! ### Tables by network -/

section Tables

variable {V T R : Type} {invalid : Str → RouteError} {inner : Str → V → Except RouteError T}
  {map map' : HashMap Str V} {rel : V → V → Prop} {result : V → R → Prop} {ip : IpAddr} {r : R}

theorem exists_buildCidrRoutes_of_rel
    (hbuild : ∃ routes, buildCidrRoutes parseIpNet invalid inner map = .ok routes)
    (hrel : HashMap.Rel rel map map')
    (hinner : ∀ key value value', rel value value' → (∃ t, inner key value = .ok t) →
      ∃ t, inner key value' = .ok t) :
    ∃ routes, buildCidrRoutes parseIpNet invalid inner map' = .ok routes := by
  rw [exists_buildCidrRoutes_iff] at hbuild ⊢
  intro key value' hlookup'
  obtain ⟨value, hlookup, hvalue⟩ := hrel.symm.exists_of_lookup hlookup'
  obtain ⟨hnet, ht⟩ := hbuild key value hlookup
  exact ⟨hnet, hinner key value value' hvalue ht⟩

/-- The longest matches do not depend on the order. -/
theorem LongestMatch.of_rel (hresult : ∀ value value', rel value value' →
    ∀ r, result value r ↔ result value' r) (hrel : HashMap.Rel rel map map')
    (h : LongestMatch parseIpNet map ip result r) : LongestMatch parseIpNet map' ip result r := by
  obtain ⟨key, value, net, hlookup, hnet, hcontains, hr, hle⟩ := h
  obtain ⟨value', hlookup', hvalue⟩ := hrel.exists_of_lookup hlookup
  refine ⟨key, value', net, hlookup', hnet, hcontains, (hresult _ _ hvalue r).mp hr, ?_⟩
  rintro key₂ value₂' net₂ hlookup₂' hnet₂ hcontains₂ ⟨r₂, hr₂⟩
  obtain ⟨value₂, hlookup₂, hvalue₂⟩ := hrel.symm.exists_of_lookup hlookup₂'
  exact hle key₂ value₂ net₂ hlookup₂ hnet₂ hcontains₂ ⟨r₂, (hresult _ _ hvalue₂ r₂).mpr hr₂⟩

theorem longestMatch_congr (hresult : ∀ value value', rel value value' →
    ∀ r, result value r ↔ result value' r) (hrel : HashMap.Rel rel map map') (r : R) :
    LongestMatch parseIpNet map ip result r ↔ LongestMatch parseIpNet map' ip result r := by
  refine ⟨LongestMatch.of_rel hresult hrel, LongestMatch.of_rel ?_ hrel.symm⟩
  exact fun value value' h r => (hresult value' value h r).symm

/-- **Every longest match is taken in some order.** Its key is moved to the front. -/
theorem exists_rel_of_longestMatch {f : T → Option R} (hrefl : ∀ value, rel value value)
    (hinner : ∀ key value t, inner key value = .ok t → Chooses (f t) (result value))
    (hvalue : ∀ value r, result value r →
      ∃ value', rel value value' ∧ ∀ key t, inner key value' = .ok t → f t = some r)
    (h : LongestMatch parseIpNet map ip result r) :
    ∃ map', HashMap.Rel rel map map' ∧
      ∀ invalid routes, buildCidrRoutes parseIpNet invalid inner map' = .ok routes →
        routes.findMapMatching ip f = some r := by
  obtain ⟨key, value, net, hlookup, hnet, hcontains, hr, hle⟩ := h
  obtain ⟨value', hrel, hvalue'⟩ := hvalue value r hr
  refine ⟨map.insert key value', HashMap.rel_insert hrefl hlookup hrel, fun _ routes hroutes => ?_⟩
  obtain ⟨entries, hentries, rfl⟩ := buildCidrRoutes_eq_ok_iff.mp hroutes
  rw [HashMap.toList_insert] at hentries
  obtain ⟨⟨net', t⟩, rest, he, hrest, rfl⟩ := mapM_cons_eq_ok_iff.mp hentries
  obtain ⟨hnet', ht⟩ := buildEntry_eq_ok_iff.mp he
  obtain rfl : net = net' := Option.some.inj (hnet.symm.trans hnet')
  refine ClientCidrRoutes.findMapMatching_ofEntries_cons (hvalue' key t ht) hcontains ?_
  rintro ⟨net₂, t₂⟩ hmem hcontains₂ hsome
  obtain ⟨key₂, value₂, hlookup₂, hnet₂, ht₂⟩ := (mem_entries_iff hrest).mp hmem
  rw [HashMap.lookup_erase_eq_ite] at hlookup₂
  split_ifs at hlookup₂ with hkey
  exact hle key₂ value₂ net₂ hlookup₂ hnet₂ hcontains₂
    ((hinner key₂ value₂ t₂ ht₂).isSome_iff.mp hsome)

end Tables

/-! ### Maps to groups -/

section Maps

open HashMap

variable {map map' : HashMap Str Str} {ip : IpAddr} {domain group : Str}

theorem exists_buildIpRoutes_of_sameEntries {invalid : Str → RouteError}
    (hbuild : ∃ routes, buildIpRoutes parseIpNet invalid map = .ok routes)
    (hsame : SameEntries map map') : ∃ routes, buildIpRoutes parseIpNet invalid map' = .ok routes :=
  exists_buildCidrRoutes_of_rel hbuild hsame.rel fun _ _ _ heq ht => heq ▸ ht

theorem longestMatch_eq_congr (hsame : SameEntries map map') (group : Str) :
    LongestMatch parseIpNet map ip Eq group ↔ LongestMatch parseIpNet map' ip Eq group :=
  longestMatch_congr (fun _ _ heq _ => heq ▸ Iff.rfl) hsame.rel group

theorem exists_sameEntries_of_longestMatch (h : LongestMatch parseIpNet map ip Eq group) :
    ∃ map', SameEntries map map' ∧ ∀ invalid routes,
      buildIpRoutes parseIpNet invalid map' = .ok routes → routes.lookup ip = some group := by
  have hchooses : ∀ value : Str, Chooses (some value) (Eq value) := fun value =>
    ⟨fun r hr => Option.some.inj hr, fun hnone => by cases hnone⟩
  obtain ⟨map', hrel, hfound⟩ := exists_rel_of_longestMatch (f := some) (fun _ => rfl)
    (fun _ value t ht => Except.ok.inj ht ▸ hchooses value)
    (fun value r hr => ⟨value, rfl, fun key t ht => by rw [← Except.ok.inj ht, hr]⟩) h
  refine ⟨map', hrel.sameEntries, fun invalid routes hroutes => ?_⟩
  rw [ClientCidrRoutes.lookup_eq_findMapMatching]
  exact hfound invalid routes hroutes

theorem exists_buildDomainRouteTable_of_sameEntries {key : Str}
    (hbuild : ∃ table, buildDomainRouteTable key map = .ok table) (hsame : SameEntries map map') :
    ∃ table, buildDomainRouteTable key map' = .ok table := by
  simp only [buildDomainRouteTable_eq_ok_iff, exists_eq_right] at hbuild ⊢
  simpa only [← hsame _] using hbuild

theorem domainGroup_congr (hsame : SameEntries map map') (group : Str) :
    DomainGroup map domain group ↔ DomainGroup map' domain group := by
  rw [DomainGroup, DomainGroup]
  simp only [hsame _]

/-- **Every group of a domain is taken in some order.** An exact pattern is inserted last, a suffix
first. -/
theorem exists_sameEntries_of_domainGroup (h : DomainGroup map domain group) :
    ∃ map', SameEntries map map' ∧ (domainRouteTable map').lookup domain = some group := by
  obtain ⟨key, hlookup, hkey⟩ | ⟨hnone, key, suffix, hlookup, hkey, hends, hle⟩ := h
  · refine ⟨pushBack map key group, sameEntries_pushBack hlookup, ?_⟩
    have hexact : exactEntry (key, group) = some (canonicalDomain domain, group) :=
      exactEntry_eq_some_iff.mpr ⟨hkey, rfl⟩
    have hfound : (domainRouteTable (pushBack map key group)).exact.lookup
        (canonicalDomain domain) = some group := by
      rw [domainRouteTable, toList_pushBack, List.filterMap_append, List.foldl_append]
      simp only [List.filterMap_cons, hexact, List.filterMap_nil, List.foldl_cons, List.foldl_nil]
      exact AList.lookup_insert _
    rw [DomainRouteTable.lookup_eq, hfound, Option.some_or]
  · have hsame : SameEntries map (map.insert key group) := sameEntries_insert hlookup
    refine ⟨map.insert key group, hsame, ?_⟩
    have hexact : (domainRouteTable (map.insert key group)).exact.lookup
        (canonicalDomain domain) = none := by
      rw [lookup_exact_eq_none_iff]
      exact fun key' hkey' => (hsame key').symm.trans (hnone key' hkey')
    have hsuffix : suffixEntry (key, group) = some (suffix, group) :=
      suffixEntry_eq_some_iff.mpr ⟨hkey, rfl⟩
    rw [DomainRouteTable.lookup_eq, hexact, Option.none_or, domainRouteTable, toList_insert]
    simp only [List.filterMap_cons, hsuffix]
    refine findSome?_sortByKeyDesc_cons ?_ fun e he hsome => ?_
    · rw [suffixResult, if_pos ((domainMatchesSuffix_ofKey_iff hkey).mpr hends)]
    · obtain ⟨key', hlookup', hkey'⟩ := mem_suffixEntries_iff.mp (show (e.1, e.2) ∈ _ from he)
      rw [lookup_erase_eq_ite] at hlookup'
      split_ifs at hlookup' with hk
      rw [suffixResult] at hsome
      split_ifs at hsome with hmatches
      · exact hle key' e.1 e.2 hlookup' hkey' ((domainMatchesSuffix_ofKey_iff hkey').mp hmatches)
      · cases hsome

end Maps

/-! ### Configurations -/

namespace Config

open HashMap

/-- The same configuration with its route maps iterated in another order. -/
structure Reordered (c c' : Config) : Prop where
  clientRoutes : SameEntries c.clientRoutes c'.clientRoutes
  clientDomainRoutes : Rel SameEntries c.clientDomainRoutes c'.clientDomainRoutes
  clientDstIpRoutes : Rel SameEntries c.clientDstIpRoutes c'.clientDstIpRoutes
  others : c' = { c with
    clientRoutes := c'.clientRoutes
    clientDomainRoutes := c'.clientDomainRoutes
    clientDstIpRoutes := c'.clientDstIpRoutes }

/-- In any two orders the tables are built and give every connection the same group. -/
def OrderIndependent (parseIpNet : Str → Option IpNet) (c : Config) : Prop :=
  ∀ c₁ c₂, c.Reordered c₁ → c.Reordered c₂ → ∃ routes₁ routes₂,
    c₁.buildRoutes parseIpNet = .ok routes₁ ∧ c₂.buildRoutes parseIpNet = .ok routes₂ ∧
    ∀ clientIp dstIp domain, routes₁.lookupUpstreamGroup clientIp dstIp domain =
      routes₂.lookupUpstreamGroup clientIp dstIp domain

/-- The most specific keys of a connection name one group. -/
def Unambiguous (parseIpNet : Str → Option IpNet) (c : Config) : Prop :=
  ∀ clientIp dstIp domain group group',
    c.UpstreamGroup parseIpNet clientIp dstIp domain group →
    c.UpstreamGroup parseIpNet clientIp dstIp domain group' → group = group'

variable {c c' : Config} {clientIp dstIp : IpAddr} {domain : Option Str} {group : Str}

theorem sameEntries_refl (map : HashMap Str Str) : SameEntries map map := fun _ => rfl

theorem Reordered.refl (c : Config) : c.Reordered c where
  clientRoutes := sameEntries_refl _
  clientDomainRoutes := Rel.refl sameEntries_refl _
  clientDstIpRoutes := Rel.refl sameEntries_refl _
  others := rfl

/-- The tables are built in every order or in none. -/
theorem Reordered.exists_buildRoutes (h : c.Reordered c')
    (hbuild : ∃ routes, c.buildRoutes parseIpNet = .ok routes) :
    ∃ routes, c'.buildRoutes parseIpNet = .ok routes := by
  obtain ⟨routes, hroutes⟩ := hbuild
  obtain ⟨hclient, hdomain, hdst⟩ := buildRoutes_eq_ok_iff.mp hroutes
  obtain ⟨clientRoutes, hclient'⟩ :=
    exists_buildIpRoutes_of_sameEntries ⟨_, hclient⟩ h.clientRoutes
  obtain ⟨clientDomainRoutes, hdomain'⟩ :=
    exists_buildCidrRoutes_of_rel ⟨_, hdomain⟩ h.clientDomainRoutes
      fun _ _ _ hsame ht => exists_buildDomainRouteTable_of_sameEntries ht hsame
  obtain ⟨clientDstIpRoutes, hdst'⟩ :=
    exists_buildCidrRoutes_of_rel ⟨_, hdst⟩ h.clientDstIpRoutes
      fun _ _ _ hsame ht => exists_buildIpRoutes_of_sameEntries ht hsame
  exact ⟨⟨clientRoutes, clientDomainRoutes, clientDstIpRoutes⟩,
    buildRoutes_eq_ok_iff.mpr ⟨hclient', hdomain', hdst'⟩⟩

/-- What the maps allow does not depend on the order. -/
theorem Reordered.upstreamGroup (h : c.Reordered c')
    (hgroup : c'.UpstreamGroup parseIpNet clientIp dstIp domain group) :
    c.UpstreamGroup parseIpNet clientIp dstIp domain group := by
  have hdst : ∀ g, c.DstGroup parseIpNet clientIp dstIp g ↔
      c'.DstGroup parseIpNet clientIp dstIp g :=
    longestMatch_congr (fun _ _ hsame => longestMatch_eq_congr hsame) h.clientDstIpRoutes
  have hdomain : ∀ name g, c.ClientDomainGroup parseIpNet clientIp name g ↔
      c'.ClientDomainGroup parseIpNet clientIp name g := fun name =>
    longestMatch_congr (fun _ _ hsame => domainGroup_congr hsame) h.clientDomainRoutes
  have hclient : ∀ g, c.ClientGroup parseIpNet clientIp g ↔
      c'.ClientGroup parseIpNet clientIp g :=
    longestMatch_eq_congr h.clientRoutes
  cases hgroup with
  | dst hg => exact .dst ((hdst _).mpr hg)
  | domain hnone hname hg =>
    exact .domain (fun g => mt (hdst g).mp (hnone g)) hname ((hdomain _ _).mpr hg)
  | client hnone hnone' hg =>
    exact .client (fun g => mt (hdst g).mp (hnone g))
      (fun name hname g => mt (hdomain name g).mp (hnone' name hname g)) ((hclient _).mpr hg)
  | default hnone hnone' hnone'' =>
    exact .default (fun g => mt (hdst g).mp (hnone g))
      (fun name hname g => mt (hdomain name g).mp (hnone' name hname g))
      (fun g => mt (hclient g).mp (hnone'' g))

theorem Reordered.upstreamGroup_lookup (h : c.Reordered c') {routes : Routes}
    (hbuild : c'.buildRoutes parseIpNet = .ok routes) (clientIp dstIp : IpAddr)
    (domain : Option Str) : c.UpstreamGroup parseIpNet clientIp dstIp domain
      (routes.lookupUpstreamGroup clientIp dstIp domain) := by
  refine h.upstreamGroup ?_
  rw [lookupUpstreamGroup_eq]
  exact upstreamGroup_of_chooses (chooses_dstGroup hbuild clientIp dstIp)
    (chooses_clientDomainGroup hbuild clientIp) (chooses_clientGroup hbuild clientIp)

theorem exists_rel_of_dstGroup (h : c.DstGroup parseIpNet clientIp dstIp group) :
    ∃ map', Rel SameEntries c.clientDstIpRoutes map' ∧ ∀ invalid routes,
      buildCidrRoutes parseIpNet invalid
        (fun ip dstMap => buildIpRoutes parseIpNet (.clientDstIpRoutesDst · ip) dstMap) map' =
          .ok routes →
      (routes.findMapMatching clientIp fun table => table.lookup dstIp) = some group := by
  refine exists_rel_of_longestMatch sameEntries_refl
    (fun _ _ t ht => chooses_lookup_buildIpRoutes ht dstIp) (fun map g hg => ?_) h
  obtain ⟨map', hsame, hlookup⟩ := exists_sameEntries_of_longestMatch hg
  exact ⟨map', hsame, fun key t ht => hlookup _ t ht⟩

theorem exists_rel_of_clientDomainGroup {name : Str}
    (h : c.ClientDomainGroup parseIpNet clientIp name group) :
    ∃ map', Rel SameEntries c.clientDomainRoutes map' ∧ ∀ invalid routes,
      buildCidrRoutes parseIpNet invalid buildDomainRouteTable map' = .ok routes →
      (routes.findMapMatching clientIp fun table => table.lookup name) = some group := by
  refine exists_rel_of_longestMatch sameEntries_refl (fun _ map t ht => ?_) (fun map g hg => ?_) h
  · obtain ⟨-, rfl⟩ := buildDomainRouteTable_eq_ok_iff.mp ht
    exact chooses_lookup_domainRouteTable map name
  · obtain ⟨map', hsame, hlookup⟩ := exists_sameEntries_of_domainGroup hg
    refine ⟨map', hsame, fun key t ht => ?_⟩
    obtain ⟨-, rfl⟩ := buildDomainRouteTable_eq_ok_iff.mp ht
    exact hlookup

/-- **Every allowed group is taken in some order.** -/
theorem UpstreamGroup.exists_reordered
    (h : c.UpstreamGroup parseIpNet clientIp dstIp domain group) :
    ∃ c', c.Reordered c' ∧ ∀ routes, c'.buildRoutes parseIpNet = .ok routes →
      routes.lookupUpstreamGroup clientIp dstIp domain = group := by
  have hdomainNone : ∀ {c' : Config} {routes : Routes}, c'.buildRoutes parseIpNet = .ok routes →
      (∀ name, domain = some name → ∀ g, ¬c'.ClientDomainGroup parseIpNet clientIp name g) →
      (domain.bind fun name => routes.clientDomainRoutes.findMapMatching clientIp fun table =>
        table.lookup name) = none := by
    intro c' routes hroutes hnot
    cases domain with
    | none => rfl
    | some name =>
      exact (chooses_clientDomainGroup hroutes clientIp name).eq_none (hnot name rfl)
  cases h with
  | dst hg =>
    obtain ⟨map', hrel, hfound⟩ := exists_rel_of_dstGroup hg
    refine ⟨{ c with clientDstIpRoutes := map' },
      ⟨sameEntries_refl _, Rel.refl sameEntries_refl _, hrel, rfl⟩, fun routes hroutes => ?_⟩
    rw [lookupUpstreamGroup_eq, hfound _ _ (buildRoutes_eq_ok_iff.mp hroutes).2.2]
    rfl
  | @domain name _ hdst hname hg =>
    obtain ⟨map', hrel, hfound⟩ := exists_rel_of_clientDomainGroup hg
    refine ⟨{ c with clientDomainRoutes := map' },
      ⟨sameEntries_refl _, hrel, Rel.refl sameEntries_refl _, rfl⟩, fun routes hroutes => ?_⟩
    rw [lookupUpstreamGroup_eq, (chooses_dstGroup hroutes clientIp dstIp).eq_none hdst, hname,
      Option.none_or, Option.bind_some, hfound _ _ (buildRoutes_eq_ok_iff.mp hroutes).2.1]
    rfl
  | client hdst hdomain hg =>
    obtain ⟨map', hsame, hfound⟩ := exists_sameEntries_of_longestMatch hg
    refine ⟨{ c with clientRoutes := map' },
      ⟨hsame, Rel.refl sameEntries_refl _, Rel.refl sameEntries_refl _, rfl⟩,
      fun routes hroutes => ?_⟩
    rw [lookupUpstreamGroup_eq, (chooses_dstGroup hroutes clientIp dstIp).eq_none hdst,
      hdomainNone hroutes hdomain, hfound _ _ (buildRoutes_eq_ok_iff.mp hroutes).1]
    rfl
  | default hdst hdomain hclient =>
    refine ⟨c, .refl c, fun routes hroutes => ?_⟩
    rw [lookupUpstreamGroup_eq, (chooses_dstGroup hroutes clientIp dstIp).eq_none hdst,
      hdomainNone hroutes hdomain, (chooses_clientGroup hroutes clientIp).eq_none hclient]
    rfl

/-- **When the order does not matter.** The groups are the same in every order exactly if the most
specific keys of each connection name one group. -/
theorem orderIndependent_iff (hbuild : ∃ routes, c.buildRoutes parseIpNet = .ok routes) :
    c.OrderIndependent parseIpNet ↔ c.Unambiguous parseIpNet := by
  constructor
  · intro h clientIp dstIp domain group group' hgroup hgroup'
    obtain ⟨c₁, hc₁, hlookup₁⟩ := hgroup.exists_reordered
    obtain ⟨c₂, hc₂, hlookup₂⟩ := hgroup'.exists_reordered
    obtain ⟨routes₁, routes₂, hroutes₁, hroutes₂, heq⟩ := h c₁ c₂ hc₁ hc₂
    rw [← hlookup₁ routes₁ hroutes₁, ← hlookup₂ routes₂ hroutes₂]
    exact heq clientIp dstIp domain
  · intro h c₁ c₂ hc₁ hc₂
    obtain ⟨routes₁, hroutes₁⟩ := hc₁.exists_buildRoutes hbuild
    obtain ⟨routes₂, hroutes₂⟩ := hc₂.exists_buildRoutes hbuild
    refine ⟨routes₁, routes₂, hroutes₁, hroutes₂, fun clientIp dstIp domain => ?_⟩
    exact h clientIp dstIp domain _ _ (hc₁.upstreamGroup_lookup hroutes₁ clientIp dstIp domain)
      (hc₂.upstreamGroup_lookup hroutes₂ clientIp dstIp domain)

end Config

/-! ### Distinct keys -/

/-- The networks have the same addresses. -/
def IpNet.sameNetwork (net net' : IpNet) : Bool :=
  net.prefixLen == net'.prefixLen && net.contains net'.addr

theorem IpNet.sameNetwork_of_contains {net net' : IpNet} {ip : IpAddr}
    (hlength : net.prefixLen = net'.prefixLen) (h : net.contains ip = true)
    (h' : net'.contains ip = true) : net.sameNetwork net' = true := by
  obtain ⟨addr, prefixLen⟩ := net
  obtain ⟨addr', prefixLen'⟩ := net'
  obtain rfl : prefixLen = prefixLen' := hlength
  rw [sameNetwork, beq_self_eq_true, Bool.true_and]
  cases ip with
  | v4 a =>
    cases addr with
    | v6 b => cases h
    | v4 b =>
      cases addr' with
      | v6 b' => cases h'
      | v4 b' =>
        simp only [contains, beq_iff_eq] at h h' ⊢
        exact h.trans h'.symm
  | v6 a =>
    cases addr with
    | v4 b => cases h
    | v6 b =>
      cases addr' with
      | v4 b' => cases h'
      | v6 b' =>
        simp only [contains, beq_iff_eq] at h h' ⊢
        exact h.trans h'.symm

/-- Different keys denote different networks. -/
def DistinctNetworks {V : Type} (parseIpNet : Str → Option IpNet) (map : HashMap Str V) : Prop :=
  ∀ e ∈ map.toList, ∀ e' ∈ map.toList, ∀ net ∈ parseIpOrCidr parseIpNet e.1,
    ∀ net' ∈ parseIpOrCidr parseIpNet e'.1, net.sameNetwork net' = true → e.1 = e'.1

/-- Different keys are different patterns. -/
def DistinctPatterns (map : HashMap Str Str) : Prop :=
  ∀ e ∈ map.toList, ∀ e' ∈ map.toList, Pattern.ofKey e.1 = Pattern.ofKey e'.1 → e.1 = e'.1

theorem LongestMatch.unique {V R : Type} {map : HashMap Str V} {ip : IpAddr}
    {result : V → R → Prop} {r r' : R} (hdistinct : DistinctNetworks parseIpNet map)
    (hresult : ∀ key value, map.lookup key = some value →
      ∀ r r', result value r → result value r' → r = r')
    (h : LongestMatch parseIpNet map ip result r) (h' : LongestMatch parseIpNet map ip result r') :
    r = r' := by
  obtain ⟨key, value, net, hlookup, hnet, hcontains, hr, hle⟩ := h
  obtain ⟨key', value', net', hlookup', hnet', hcontains', hr', hle'⟩ := h'
  have hlength : net.prefixLen = net'.prefixLen :=
    le_antisymm (hle' key value net hlookup hnet hcontains ⟨r, hr⟩)
      (hle key' value' net' hlookup' hnet' hcontains' ⟨r', hr'⟩)
  obtain rfl : key = key' := hdistinct (key, value) ((HashMap.mem_toList map).mpr hlookup)
    (key', value') ((HashMap.mem_toList map).mpr hlookup') net hnet net' hnet'
    (IpNet.sameNetwork_of_contains hlength hcontains hcontains')
  obtain rfl : value = value' := Option.some.inj (hlookup.symm.trans hlookup')
  exact hresult key value hlookup r r' hr hr'

theorem LongestMatch.unique_eq {map : HashMap Str Str} {ip : IpAddr} {group group' : Str}
    (hdistinct : DistinctNetworks parseIpNet map) (h : LongestMatch parseIpNet map ip Eq group)
    (h' : LongestMatch parseIpNet map ip Eq group') : group = group' :=
  LongestMatch.unique hdistinct (fun _ _ _ _ _ hr hr' => hr.symm.trans hr') h h'

theorem EndsIn.suffix {domain suffix : Str} (h : EndsIn domain suffix) :
    suffix <:+ canonicalDomain domain := by
  obtain heq | hsuffix := h
  · rw [heq]
  · exact (List.suffix_cons dot suffix).trans hsuffix

theorem DomainGroup.unique {map : HashMap Str Str} {domain group group' : Str}
    (hdistinct : DistinctPatterns map) (h : DomainGroup map domain group)
    (h' : DomainGroup map domain group') : group = group' := by
  have hkeys : ∀ key key', map.lookup key = some group → map.lookup key' = some group' →
      Pattern.ofKey key = Pattern.ofKey key' → group = group' := by
    intro key key' hlookup hlookup' hpattern
    obtain rfl : key = key' := hdistinct (key, group) ((HashMap.mem_toList map).mpr hlookup)
      (key', group') ((HashMap.mem_toList map).mpr hlookup') hpattern
    exact Option.some.inj (hlookup.symm.trans hlookup')
  obtain ⟨key, hlookup, hkey⟩ | ⟨hnone, key, suffix, hlookup, hkey, hends, hle⟩ := h
  · obtain ⟨key', hlookup', hkey'⟩ | ⟨hnone', -⟩ := h'
    · exact hkeys key key' hlookup hlookup' (hkey.trans hkey'.symm)
    · rw [hnone' key hkey] at hlookup
      cases hlookup
  · obtain ⟨key', hlookup', hkey'⟩ | ⟨-, key', suffix', hlookup', hkey', hends', hle'⟩ := h'
    · rw [hnone key' hkey'] at hlookup'
      cases hlookup'
    · have hlength : suffix.length = suffix'.length :=
        le_antisymm (hle' key suffix group hlookup hkey hends)
          (hle key' suffix' group' hlookup' hkey' hends')
      obtain rfl : suffix = suffix' :=
        (List.suffix_of_suffix_length_le hends.suffix hends'.suffix hlength.le).eq_of_length hlength
      exact hkeys key key' hlookup hlookup' (hkey.trans hkey'.symm)

namespace Config

/-- No two keys of a map denote the same network or the same pattern. -/
structure Distinct (parseIpNet : Str → Option IpNet) (c : Config) : Prop where
  clientRoutes : DistinctNetworks parseIpNet c.clientRoutes
  clientDomainRoutes : DistinctNetworks parseIpNet c.clientDomainRoutes
  patterns : ∀ e ∈ c.clientDomainRoutes.toList, DistinctPatterns e.2
  clientDstIpRoutes : DistinctNetworks parseIpNet c.clientDstIpRoutes
  destinations : ∀ e ∈ c.clientDstIpRoutes.toList, DistinctNetworks parseIpNet e.2

/-- Distinct keys leave nothing open. -/
theorem unambiguous_of_distinct {c : Config} (h : c.Distinct parseIpNet) :
    c.Unambiguous parseIpNet := by
  intro clientIp dstIp domain group group' hgroup hgroup'
  have hdst : ∀ g g', c.DstGroup parseIpNet clientIp dstIp g →
      c.DstGroup parseIpNet clientIp dstIp g' → g = g' := fun g g' =>
    LongestMatch.unique h.clientDstIpRoutes fun key value hlookup _ _ =>
      LongestMatch.unique_eq (h.destinations (key, value) ((HashMap.mem_toList _).mpr hlookup))
  have hdomain : ∀ name g g', c.ClientDomainGroup parseIpNet clientIp name g →
      c.ClientDomainGroup parseIpNet clientIp name g' → g = g' := fun name g g' =>
    LongestMatch.unique h.clientDomainRoutes fun key value hlookup _ _ =>
      DomainGroup.unique (h.patterns (key, value) ((HashMap.mem_toList _).mpr hlookup))
  have hclient : ∀ g g', c.ClientGroup parseIpNet clientIp g →
      c.ClientGroup parseIpNet clientIp g' → g = g' := fun g g' =>
    LongestMatch.unique_eq h.clientRoutes
  cases hgroup with
  | dst hg =>
    cases hgroup' with
    | dst hg' => exact hdst _ _ hg hg'
    | domain hnone => exact absurd hg (hnone _)
    | client hnone => exact absurd hg (hnone _)
    | default hnone => exact absurd hg (hnone _)
  | domain hnone hname hg =>
    cases hgroup' with
    | dst hg' => exact absurd hg' (hnone _)
    | domain _ hname' hg' =>
      cases hname.symm.trans hname'
      exact hdomain _ _ _ hg hg'
    | client _ hnone' => exact absurd hg (hnone' _ hname _)
    | default _ hnone' => exact absurd hg (hnone' _ hname _)
  | client hnone hnone' hg =>
    cases hgroup' with
    | dst hg' => exact absurd hg' (hnone _)
    | domain _ hname' hg' => exact absurd hg' (hnone' _ hname' _)
    | client _ _ hg' => exact hclient _ _ hg hg'
    | default _ _ hnone'' => exact absurd hg (hnone'' _)
  | default hnone hnone' hnone'' =>
    cases hgroup' with
    | dst hg' => exact absurd hg' (hnone _)
    | domain _ hname' hg' => exact absurd hg' (hnone' _ hname' _)
    | client _ _ hg' => exact absurd hg' (hnone'' _)
    | default => rfl

end Config

/-! ### Two spellings of one network -/

/-- The tables of a client inside a network do not depend on the order. -/
theorem orderIndependent_nestedTables : nestedTables.OrderIndependent exampleParseIpNet := by
  have hbuild : ∃ routes, nestedTables.buildRoutes exampleParseIpNet = .ok routes := by
    have hsome : (nestedTables.buildRoutes exampleParseIpNet).toOption.isSome = true := by
      decide +kernel
    obtain ⟨routes, hroutes⟩ := Option.isSome_iff_exists.mp hsome
    exact ⟨routes, toOption_eq_some_iff.mp hroutes⟩
  refine (Config.orderIndependent_iff hbuild).mpr (Config.unambiguous_of_distinct ?_)
  constructor
  · unfold DistinctNetworks
    decide +kernel
  · unfold DistinctNetworks
    decide +kernel
  · unfold DistinctPatterns
    decide +kernel
  · unfold DistinctNetworks
    decide +kernel
  · unfold DistinctNetworks
    decide +kernel

/-- An upstream with one group. -/
def upstreamOf (id group : Str) : UpstreamConfig where
  id := id
  addr := .v4 ⟨127, 0, 0, 1⟩ 1080
  groups := some [group]

/-- The client `10.0.0.1` is spelled with and without the length of the prefix, with different
groups. -/
def twoSpellings (order : Bool) : Config where
  upstream := [upstreamOf [0x61] [0x61], upstreamOf [0x62] [0x62]]
  clientRoutes :=
    let bare : HashMap Str Str → HashMap Str Str :=
      AList.insert [0x31, 0x30, 0x2e, 0x30, 0x2e, 0x30, 0x2e, 0x31] [0x61]
    let cidr : HashMap Str Str → HashMap Str Str :=
      AList.insert [0x31, 0x30, 0x2e, 0x30, 0x2e, 0x30, 0x2e, 0x31, 0x2f, 0x33, 0x32] [0x62]
    if order then bare (cidr ∅) else cidr (bare ∅)

theorem reordered_twoSpellings : (twoSpellings true).Reordered (twoSpellings false) where
  clientRoutes := by
    intro key
    simp only [twoSpellings, Bool.false_eq_true, if_true, if_false, HashMap.lookup_insert_eq_ite]
    split_ifs with h h'
    · rw [h] at h'
      revert h'
      decide
    · rfl
    · rfl
    · rfl
  clientDomainRoutes := HashMap.Rel.refl Config.sameEntries_refl _
  clientDstIpRoutes := HashMap.Rel.refl Config.sameEntries_refl _
  others := rfl

/-- The configuration is accepted, and its two orders send the client to different groups. -/
theorem not_orderIndependent_twoSpellings :
    (twoSpellings true).validate exampleParseIpNet = .ok () ∧
    (∃ routes, (twoSpellings true).buildRoutes exampleParseIpNet = .ok routes) ∧
    ¬(twoSpellings true).OrderIndependent exampleParseIpNet := by
  have hlookup : ∀ order, ((twoSpellings order).buildRoutes exampleParseIpNet).toOption.map
      (fun routes => routes.lookupUpstreamGroup (.v4 ⟨10, 0, 0, 1⟩) (.v4 ⟨1, 1, 1, 1⟩) none) =
        some (if order then [0x61] else [0x62]) := by
    decide +kernel
  refine ⟨by decide +kernel, ?_, fun h => ?_⟩
  · obtain ⟨routes, hroutes, -⟩ := Option.map_eq_some_iff.mp (hlookup true)
    exact ⟨routes, toOption_eq_some_iff.mp hroutes⟩
  · obtain ⟨routes₁, routes₂, hroutes₁, hroutes₂, heq⟩ :=
      h _ _ (.refl _) reordered_twoSpellings
    have hgroup₁ := hlookup true
    have hgroup₂ := hlookup false
    rw [hroutes₁] at hgroup₁
    rw [hroutes₂] at hgroup₂
    have hsame := (Option.some.inj hgroup₁).symm.trans
      ((heq _ _ _).trans (Option.some.inj hgroup₂))
    revert hsame
    decide

end XtpRs
