import XtpRs.Lib.Run
import XtpRs.Lib.TtlCache
import XtpRs.Routing.Domain
import XtpRs.Routing.IpSet

/-!
# Direct or proxied

`AppState::should_direct` of `src/state.rs` decides whether a connection goes out directly. Domain
rules are tried on every call; the decision by IP rules is cached under the address and the
normalised domain. The reference is the list of rules in the order of priority of
`docs/工作原理.md`, with no cache: the first rule that applies decides.

## Main definitions

* `AppState`: the rules and the settings of the cache; `RouteState`: mode and cache.
* `AppState.shouldDirect`: the code.
* `AppState.referenceDecision`: the reference.

## Main results

* `AppState.shouldDirect_fst`: on a sound cache the code decides as the reference.
* `AppState.routeCache_transparent`: every call of every run decides as the reference.
-/

namespace XtpRs.Routing

open Lib

/-- `ProxyMode`. -/
inductive ProxyMode
  | smart
  | global
  | bypass
  deriving DecidableEq, Repr

/-- `ProxyMode::from_u8`. -/
def ProxyMode.ofUInt8 (v : UInt8) : ProxyMode :=
  if v = 1 then global
  else if v = 2 then bypass
  else smart

/-- What routing reads of an `AppState`. The reader of the MMDB file is given by the country code
that a lookup and decoding yield for an address, `none` when either fails. -/
structure AppState where
  mmdb : Option (IpAddr → Option Str)
  forceDirectV4 : RTrieSet
  forceDirectV6 : RTrieSet
  forceSocks5V4 : RTrieSet
  forceSocks5V6 : RTrieSet
  forceDirectDomains : DomainSet
  forceSocks5Domains : DomainSet
  compiledGeosite : Option CompiledGeosite
  proxyGeositeTags : List Str
  directGeositeTags : List Str
  directLocalIp : Bool
  directCountries : List Str
  routeCacheTtl : ℕ
  routeCacheMax : ℕ

/-- The key of `DirectCache`. -/
abbrev DirectKey := IpAddr × Option Str

/-- The state that calls of `should_direct` share: `proxy_mode` and `direct_cache`. -/
structure RouteState where
  proxyMode : UInt8
  directCache : TtlCache DirectKey Bool

/-- The state of a new generation. -/
def RouteState.new (proxyMode : UInt8) : RouteState where
  proxyMode
  directCache := ∅

/-- The readings of the clock during one call: at the lookup, at each entry while pruning, and at
the insertion. -/
structure Readings where
  lookup : ℕ
  retain : DirectKey → ℕ
  insert : ℕ

namespace AppState

variable (app : AppState)

/-! ### The code -/

/-- `AppState::is_direct_country_ip`. -/
def isDirectCountryIp (ip : IpAddr) : Bool :=
  match app.mmdb with
  | none => false
  | some reader =>
    match reader ip with
    | none => false
    | some code => app.directCountries.any fun c => eqIgnoreAsciiCase c code

/-- The domain rules of `should_direct`, which return before the cache is looked at. -/
def domainRules (domain : Option Str) : Option Bool :=
  match domain with
  | none => none
  | some domain =>
    let canonical := canonicalDomain domain
    if app.forceSocks5Domains.matchesCanonical canonical then some false
    else if app.forceDirectDomains.matchesCanonical canonical then some true
    else
      match app.compiledGeosite with
      | none => none
      | some compiled =>
        if app.proxyGeositeTags.any fun tag => compiledGeositeContains compiled tag domain then
          some false
        else if
          app.directGeositeTags.any fun tag => compiledGeositeContains compiled tag domain then
          some true
        else none

/-- The IP rules of `should_direct`. -/
def ipRules (ip : IpAddr) : Bool :=
  match ip with
  | .v4 ipv4 =>
    if ipv4TrieContains app.forceSocks5V4 ipv4 then false
    else if ipv4TrieContains app.forceDirectV4 ipv4 then true
    else (app.directLocalIp && isMustDirectLocalIp ip) || app.isDirectCountryIp ip
  | .v6 ipv6 =>
    if ipv6TrieContains app.forceSocks5V6 ipv6 then false
    else if ipv6TrieContains app.forceDirectV6 ipv6 then true
    else (app.directLocalIp && isMustDirectLocalIp ip) || app.isDirectCountryIp ip

/-- `AppState::direct_cache_insert_with_key`. -/
def directCacheInsertWithKey (st : RouteState) (clock : Readings) (ip : IpAddr)
    (normalized : Option Str) (direct : Bool) : RouteState :=
  { st with
    directCache := st.directCache.insertPruned app.routeCacheMax app.routeCacheTtl clock.retain
      clock.insert (ip, normalized) direct }

/-- `AppState::should_direct`, with the state it leaves. -/
def shouldDirect (st : RouteState) (clock : Readings) (ip : IpAddr) (domain : Option Str) :
    Bool × RouteState :=
  match ProxyMode.ofUInt8 st.proxyMode with
  | .global => (false, st)
  | .bypass => (true, st)
  | .smart =>
    match app.domainRules domain with
    | some direct => (direct, st)
    | none =>
      -- a time to live of zero turns the cache off
      if app.routeCacheTtl = 0 then (app.ipRules ip, st)
      else
        let normalized := normalizeDomain domain
        match st.directCache.get app.routeCacheTtl clock.lookup (ip, normalized) with
        | (some direct, directCache) => (direct, { st with directCache })
        | (none, directCache) =>
          let result := app.ipRules ip
          (result,
            app.directCacheInsertWithKey { st with directCache } clock ip normalized result)

/-! ### The reference -/

/-- A rule: whether it applies to the connection, and what it then decides. -/
structure Rule where
  applies : Bool
  direct : Bool

/-- The decision of the first rule that applies; a connection without one is proxied. -/
def decideBy (rules : List Rule) : Bool :=
  ((rules.find? Rule.applies).map Rule.direct).getD false

/-- A domain has one of the tags. -/
def hasGeositeTag (tags : List Str) (domain : Str) : Bool :=
  app.compiledGeosite.any fun compiled =>
    tags.any fun tag => compiledGeositeContains compiled tag domain

/-- Membership of an address in a pair of sets, one for each version. -/
def inIpSets (v4 v6 : RTrieSet) : IpAddr → Bool
  | .v4 ip => ipv4TrieContains v4 ip
  | .v6 ip => ipv6TrieContains v6 ip

/-- The rules by domain, in the order of priority. -/
def domainRuleList (domain : Str) : List Rule :=
  [⟨app.forceSocks5Domains.matchesCanonical (canonicalDomain domain), false⟩,
    ⟨app.forceDirectDomains.matchesCanonical (canonicalDomain domain), true⟩,
    ⟨app.hasGeositeTag app.proxyGeositeTags domain, false⟩,
    ⟨app.hasGeositeTag app.directGeositeTags domain, true⟩]

/-- The rules by address, in the order of priority. -/
def ipRuleList (ip : IpAddr) : List Rule :=
  [⟨inIpSets app.forceSocks5V4 app.forceSocks5V6 ip, false⟩,
    ⟨inIpSets app.forceDirectV4 app.forceDirectV6 ip, true⟩,
    ⟨app.directLocalIp && isMustDirectLocalIp ip, true⟩,
    ⟨app.isDirectCountryIp ip, true⟩]

/-- The decision without a cache. -/
def referenceDecision (mode : ProxyMode) (ip : IpAddr) (domain : Option Str) : Bool :=
  match mode with
  | .global => false
  | .bypass => true
  | .smart => decideBy (domain.toList.flatMap app.domainRuleList ++ app.ipRuleList ip)

/-! ### Code and reference -/

theorem decideBy_cons (rule : Rule) (rules : List Rule) :
    decideBy (rule :: rules) = if rule.applies then rule.direct else decideBy rules := by
  cases h : rule.applies <;> simp [decideBy, h]

theorem decideBy_nil : decideBy [] = false :=
  rfl

/-- The IP rules of the code are those of the reference. -/
theorem ipRules_eq (ip : IpAddr) : app.ipRules ip = decideBy (app.ipRuleList ip) := by
  have hor : ∀ b c : Bool, (b || c) = if b then true else if c then true else false := by decide
  cases ip with
  | v4 ip => simp only [ipRules, ipRuleList, decideBy_cons, decideBy_nil, inIpSets, hor]
  | v6 ip => simp only [ipRules, ipRuleList, decideBy_cons, decideBy_nil, inIpSets, hor]

/-- The domain rules of the code are those of the reference, whatever comes after them. -/
theorem decideBy_domainRules (domain : Option Str) (rules : List Rule) :
    decideBy (domain.toList.flatMap app.domainRuleList ++ rules) =
      (app.domainRules domain).getD (decideBy rules) := by
  cases domain with
  | none => rfl
  | some domain =>
    cases hgeosite : app.compiledGeosite with
    | none =>
      simp only [domainRules, domainRuleList, hasGeositeTag, hgeosite, Option.toList_some,
        List.flatMap_singleton, List.cons_append, List.nil_append, decideBy_cons, Option.any_none]
      split_ifs <;> simp_all
    | some compiled =>
      simp only [domainRules, domainRuleList, hasGeositeTag, hgeosite, Option.toList_some,
        List.flatMap_singleton, List.cons_append, List.nil_append, decideBy_cons, Option.any_some]
      split_ifs <;> rfl

/-- The decision of the reference in smart mode: domain rules, then IP rules. -/
theorem referenceDecision_smart (ip : IpAddr) (domain : Option Str) :
    app.referenceDecision .smart ip domain = (app.domainRules domain).getD (app.ipRules ip) := by
  rw [referenceDecision, decideBy_domainRules, ipRules_eq]

variable {app} {st : RouteState} {clock : Readings} {ip : IpAddr} {domain : Option Str}

/-- **One call.** On a cache whose entries are decisions by IP rules, the code decides as the
reference does. -/
theorem shouldDirect_fst (h : st.directCache.Sound fun key => app.ipRules key.1) :
    (app.shouldDirect st clock ip domain).1 =
      app.referenceDecision (.ofUInt8 st.proxyMode) ip domain := by
  unfold shouldDirect
  cases hmode : ProxyMode.ofUInt8 st.proxyMode with
  | global => rfl
  | bypass => rfl
  | smart =>
    rw [referenceDecision_smart]
    cases hdomain : app.domainRules domain with
    | some direct => rfl
    | none =>
      dsimp only
      by_cases httl : app.routeCacheTtl = 0
      · rw [if_pos httl]
        rfl
      · rw [if_neg httl]
        cases hget : st.directCache.get app.routeCacheTtl clock.lookup
          (ip, normalizeDomain domain) with
        | mk found directCache =>
          cases found with
          | none => rfl
          | some direct => exact h.get_fst (by rw [hget])

/-- A call keeps the entries of the cache decisions by IP rules. -/
theorem sound_shouldDirect (h : st.directCache.Sound fun key => app.ipRules key.1) :
    (app.shouldDirect st clock ip domain).2.directCache.Sound fun key => app.ipRules key.1 := by
  unfold shouldDirect
  cases ProxyMode.ofUInt8 st.proxyMode with
  | global => exact h
  | bypass => exact h
  | smart =>
    cases app.domainRules domain with
    | some direct => exact h
    | none =>
      dsimp only
      by_cases httl : app.routeCacheTtl = 0
      · rw [if_pos httl]
        exact h
      · rw [if_neg httl]
        have hrest : (st.directCache.get app.routeCacheTtl clock.lookup
            (ip, normalizeDomain domain)).2.Sound fun key => app.ipRules key.1 := h.get_snd
        cases hget : st.directCache.get app.routeCacheTtl clock.lookup
          (ip, normalizeDomain domain) with
        | mk found directCache =>
          rw [hget] at hrest
          cases found with
          | none => exact hrest.insertPruned
          | some direct => exact hrest

/-- A call leaves the mode as it is. -/
theorem proxyMode_shouldDirect :
    (app.shouldDirect st clock ip domain).2.proxyMode = st.proxyMode := by
  unfold shouldDirect
  cases ProxyMode.ofUInt8 st.proxyMode with
  | global => rfl
  | bypass => rfl
  | smart =>
    cases app.domainRules domain with
    | some direct => rfl
    | none =>
      dsimp only
      by_cases httl : app.routeCacheTtl = 0
      · rw [if_pos httl]
      · rw [if_neg httl]
        split
        · rfl
        · rfl

/-! ### Runs -/

/-- What happens to the shared state. -/
inductive RouteAction
  | shouldDirect (clock : Readings) (ip : IpAddr) (domain : Option Str)
  | setProxyMode (proxyMode : UInt8)

/-- One call, or one change of the mode. -/
def step (app : AppState) (st : RouteState) : RouteAction → Option RouteState
  | .shouldDirect clock ip domain => some (app.shouldDirect st clock ip domain).2
  | .setProxyMode proxyMode => some { st with proxyMode }

/-- In every run the entries of the cache are decisions by IP rules. -/
theorem sound_of_reachable {proxyMode : UInt8}
    (h : Reachable app.step (RouteState.new proxyMode) st) :
    st.directCache.Sound fun key => app.ipRules key.1 := by
  refine h.invariant (I := fun st => st.directCache.Sound fun key => app.ipRules key.1)
    (TtlCache.Sound.empty _) ?_
  intro st a st' hst _ hs
  cases a with
  | shouldDirect clock ip domain =>
    cases hs
    exact sound_shouldDirect hst
  | setProxyMode proxyMode =>
    cases hs
    exact hst

/-- **The route cache is transparent.** In every state that calls and changes of the mode lead to,
at whatever readings of the clock, a call decides as the reference for the current mode, and every
entry of the cache is the decision for its address alone. -/
theorem routeCache_transparent {proxyMode : UInt8}
    (h : Reachable app.step (RouteState.new proxyMode) st) :
    (∀ clock ip domain, (app.shouldDirect st clock ip domain).1 =
      app.referenceDecision (.ofUInt8 st.proxyMode) ip domain) ∧
    ∀ ip normalized direct inserted,
      st.directCache.lookup (ip, normalized) = some (direct, inserted) →
        direct = app.referenceDecision .smart ip none := by
  have hsound := sound_of_reachable h
  refine ⟨fun clock ip domain => shouldDirect_fst hsound, ?_⟩
  intro ip normalized direct inserted hentry
  rw [referenceDecision_smart]
  exact hsound (ip, normalized) direct inserted hentry

/-- The addresses of `cn` go out directly, the domain `b` and those below it are proxied. -/
def exampleApp : AppState where
  mmdb := some fun ip => if ip = .v4 ⟨1, 2, 3, 4⟩ then some [0x43, 0x4e] else none
  forceDirectV4 := {}
  forceDirectV6 := {}
  forceSocks5V4 := {}
  forceSocks5V6 := {}
  forceDirectDomains := {}
  forceSocks5Domains := .compile [[0x2e, 0x62]]
  compiledGeosite := none
  proxyGeositeTags := []
  directGeositeTags := []
  directLocalIp := true
  directCountries := [[0x63, 0x6e]]
  routeCacheTtl := 5
  routeCacheMax := 1

theorem routeCache_transparent_exampleApp :
    ∃ st, Reachable exampleApp.step (RouteState.new 0) st ∧
      st.directCache.lookup (.v4 ⟨1, 2, 3, 4⟩, none) = some (true, 7) ∧
      (exampleApp.shouldDirect st ⟨8, fun _ => 8, 8⟩ (.v4 ⟨1, 2, 3, 4⟩) none).1 =
        exampleApp.referenceDecision .smart (.v4 ⟨1, 2, 3, 4⟩) none ∧
      (exampleApp.shouldDirect st ⟨8, fun _ => 8, 8⟩ (.v4 ⟨1, 2, 3, 4⟩)
        (some [0x61, 0x2e, 0x62])).1 = false := by
  obtain ⟨st, hst, hmode, hentry⟩ : ∃ st, Reachable exampleApp.step (RouteState.new 0) st ∧
      (st.proxyMode = 0 ∧ st.directCache.lookup (.v4 ⟨1, 2, 3, 4⟩, none) = some (true, 7)) :=
    exists_steps_of_run
      (l := [.shouldDirect ⟨0, fun _ => 0, 0⟩ (.v4 ⟨5, 6, 7, 8⟩) none,
        .setProxyMode 1, .shouldDirect ⟨3, fun _ => 3, 3⟩ (.v4 ⟨1, 2, 3, 4⟩) none,
        .setProxyMode 0, .shouldDirect ⟨7, fun _ => 7, 7⟩ (.v4 ⟨1, 2, 3, 4⟩) none])
      (fun _ _ _ => trivial) (by decide +kernel)
  have hcall := (routeCache_transparent hst).1
  rw [hmode] at hcall
  refine ⟨st, hst, hentry, hcall _ _ _, ?_⟩
  rw [hcall]
  decide +kernel

end AppState

end XtpRs.Routing
