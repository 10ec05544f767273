import XtpRs.Tcp.Connection

/-!
# The capacity of the route caches

`route_cache_max` is the number of entries that the cache of decisions and the cache of upstreams
may hold. An insertion into a full cache drops the entries that are too old and then inserts, also
when none of them was. So the caches keep to their capacity as long as no new key comes to a full
cache of which all entries are fresh, and no longer.

## Main definitions

* `Shared.WithinCapacity`: both caches keep to the capacity.
* `CacheCall`, `callStep`: the calls that read and write the caches.
* `CacheCall.HasRoom`: a call that inserts finds room.

## Main results

* `caches_within_capacity`: in every run of calls that find room the caches keep to their capacity,
  and a call that finds none exceeds it.
-/

namespace XtpRs.Routing.AppState

open Lib

variable {app : AppState} {st : RouteState} {clock : Readings} {ip : IpAddr} {domain : Option Str}

/-- A call of `should_direct` looks into the cache. -/
def UsesDirectCache (app : AppState) (st : RouteState) (domain : Option Str) : Prop :=
  ProxyMode.ofUInt8 st.proxyMode = .smart ∧ app.domainRules domain = none ∧ app.routeCacheTtl ≠ 0

instance (app : AppState) (st : RouteState) (domain : Option Str) :
    Decidable (app.UsesDirectCache st domain) :=
  inferInstanceAs (Decidable (_ ∧ _ ∧ _))

/-- What a call leaves of the state that does not look into the cache. -/
theorem shouldDirect_snd_of_not_usesDirectCache (h : ¬app.UsesDirectCache st domain) :
    (app.shouldDirect st clock ip domain).2 = st := by
  unfold shouldDirect
  cases hmode : ProxyMode.ofUInt8 st.proxyMode with
  | global => rfl
  | bypass => rfl
  | smart =>
    cases hdomain : app.domainRules domain with
    | some direct => rfl
    | none =>
      have httl : app.routeCacheTtl = 0 := by
        by_contra httl
        exact h ⟨hmode, hdomain, httl⟩
      dsimp only
      rw [if_pos httl]

/-- The lookup of a call of `should_direct`. -/
def directLookup (app : AppState) (st : RouteState) (clock : Readings) (ip : IpAddr)
    (domain : Option Str) : Option Bool × TtlCache DirectKey Bool :=
  st.directCache.get app.routeCacheTtl clock.lookup (ip, normalizeDomain domain)

/-- The cache that a call leaves after it has looked into it. -/
theorem directCache_shouldDirect (h : app.UsesDirectCache st domain) :
    (app.shouldDirect st clock ip domain).2.directCache =
      if (app.directLookup st clock ip domain).1.isSome then
        (app.directLookup st clock ip domain).2
      else
        (app.directLookup st clock ip domain).2.insertPruned app.routeCacheMax app.routeCacheTtl
          clock.retain clock.insert (ip, normalizeDomain domain) (app.ipRules ip) := by
  obtain ⟨hmode, hdomain, httl⟩ := h
  unfold shouldDirect
  rw [hmode]
  dsimp only
  rw [hdomain]
  dsimp only
  rw [if_neg httl, ← directLookup]
  rcases app.directLookup st clock ip domain with ⟨_ | direct, directCache⟩
  · rfl
  · rfl

/-- **The cache of decisions.** A call keeps to the capacity exactly where its key finds room. -/
theorem size_directCache_shouldDirect_le_iff (hsize : st.directCache.size ≤ app.routeCacheMax) :
    (app.shouldDirect st clock ip domain).2.directCache.size ≤ app.routeCacheMax ↔
      (app.UsesDirectCache st domain → st.directCache.HasRoom app.routeCacheMax app.routeCacheTtl
        clock.retain (ip, normalizeDomain domain)) := by
  by_cases huses : app.UsesDirectCache st domain
  · rw [directCache_shouldDirect huses, forall_prop_of_true huses]
    have hlookup : (app.directLookup st clock ip domain).2.size ≤ app.routeCacheMax :=
      TtlCache.size_get_le.trans hsize
    split_ifs with hhit
    · -- only a key with an entry is found
      refine iff_of_true hlookup (.inl ?_)
      by_contra hnone
      rw [Bool.not_eq_true, Option.isSome_eq_false_iff, Option.isNone_iff_eq_none] at hnone
      rw [directLookup, TtlCache.get, hnone] at hhit
      cases hhit
    · rw [Bool.not_eq_true, Option.isSome_eq_false_iff, Option.isNone_iff_eq_none] at hhit
      rw [TtlCache.size_insertPruned_le_iff hlookup]
      exact TtlCache.hasRoom_get_snd_iff hsize hhit
  · rw [shouldDirect_snd_of_not_usesDirectCache huses]
    exact iff_of_true hsize fun h => absurd h huses

end XtpRs.Routing.AppState

namespace XtpRs.Tcp

open Lib Routing Upstream

variable {parseIpNet : Str → Option IpNet} {app : AppState parseIpNet} {mode : UInt8}

/-- Both caches keep to the capacity. -/
structure Shared.WithinCapacity (app : AppState parseIpNet) (sh : Shared) : Prop where
  directCache : sh.route.directCache.size ≤ app.routeCacheMax
  upstreamCache : sh.upstreamCache.size ≤ app.routeCacheMax

theorem Shared.withinCapacity_iff {sh : Shared} : sh.WithinCapacity app ↔
    sh.route.directCache.size ≤ app.routeCacheMax ∧ sh.upstreamCache.size ≤ app.routeCacheMax :=
  ⟨fun h => ⟨h.directCache, h.upstreamCache⟩, fun h => ⟨h.1, h.2⟩⟩

/-- The calls that read or write a route cache, with the readings of the clock that they make. -/
inductive CacheCall
  | shouldDirect (clock : Readings) (ip : IpAddr) (domain : Option Str)
  | getCachedUpstream (now : ℕ) (clientIp targetIp : IpAddr) (domain : Option Str)
  | cacheUpstream (retain : UpstreamKey → ℕ) (now : ℕ) (clientIp targetIp : IpAddr)
      (domain : Option Str) (up : Upstream)
  | removeCachedUpstream (clientIp targetIp : IpAddr) (domain : Option Str)

/-- The caches after a call. -/
def callStep (app : AppState parseIpNet) (sh : Shared) : CacheCall → Option Shared
  | .shouldDirect clock ip domain =>
    some { sh with route := (app.shouldDirect sh.route clock ip domain).2 }
  | .getCachedUpstream now clientIp targetIp domain =>
    some { sh with
      upstreamCache := (app.getCachedUpstream sh.upstreamCache now clientIp targetIp domain).2 }
  | .cacheUpstream retain now clientIp targetIp domain up =>
    some { sh with
      upstreamCache := app.cacheUpstream sh.upstreamCache retain now clientIp targetIp domain up }
  | .removeCachedUpstream clientIp targetIp domain =>
    some { sh with
      upstreamCache := AppState.removeCachedUpstream sh.upstreamCache clientIp targetIp domain }

/-- A call that comes to insert an entry finds room for it. -/
def CacheCall.HasRoom (app : AppState parseIpNet) (sh : Shared) : CacheCall → Prop
  | .shouldDirect clock ip domain =>
    app.UsesDirectCache sh.route domain → sh.route.directCache.HasRoom app.routeCacheMax
      app.routeCacheTtl clock.retain (ip, normalizeDomain domain)
  | .cacheUpstream retain _ clientIp targetIp domain _ =>
    app.routeCacheTtl ≠ 0 → sh.upstreamCache.HasRoom app.routeCacheMax app.routeCacheTtl retain
      (clientIp, targetIp, normalizeDomain domain)
  | .getCachedUpstream .. | .removeCachedUpstream .. => True

instance (app : AppState parseIpNet) (sh : Shared) (call : CacheCall) :
    Decidable (call.HasRoom app sh) :=
  match call with
  | .shouldDirect .. => inferInstanceAs (Decidable (_ → _))
  | .cacheUpstream .. => inferInstanceAs (Decidable (_ → _))
  | .getCachedUpstream .. => inferInstanceAs (Decidable True)
  | .removeCachedUpstream .. => inferInstanceAs (Decidable True)

theorem size_getCachedUpstream_le {cache : TtlCache UpstreamKey Upstream} {now : ℕ}
    {clientIp targetIp : IpAddr} {domain : Option Str} :
    (app.getCachedUpstream cache now clientIp targetIp domain).2.size ≤ cache.size := by
  unfold AppState.getCachedUpstream
  split_ifs
  · exact le_rfl
  · exact TtlCache.size_get_le

/-- **The cache of upstreams.** A call keeps to the capacity exactly where its key finds room. -/
theorem size_cacheUpstream_le_iff {cache : TtlCache UpstreamKey Upstream}
    {retain : UpstreamKey → ℕ} {now : ℕ} {clientIp targetIp : IpAddr} {domain : Option Str}
    {up : Upstream} (hsize : cache.size ≤ app.routeCacheMax) :
    (app.cacheUpstream cache retain now clientIp targetIp domain up).size ≤ app.routeCacheMax ↔
      (app.routeCacheTtl ≠ 0 → cache.HasRoom app.routeCacheMax app.routeCacheTtl retain
        (clientIp, targetIp, normalizeDomain domain)) := by
  unfold AppState.cacheUpstream
  split_ifs with httl
  · exact iff_of_true hsize fun h => absurd httl h
  · rw [TtlCache.size_insertPruned_le_iff hsize, forall_prop_of_true httl]

/-- **One call.** From caches that keep to the capacity a call leads to such caches exactly where it
has room. -/
theorem Shared.WithinCapacity.callStep_iff {sh sh' : Shared} {call : CacheCall}
    (h : sh.WithinCapacity app) (hstep : callStep app sh call = some sh') :
    sh'.WithinCapacity app ↔ call.HasRoom app sh := by
  rw [withinCapacity_iff]
  cases call with
  | shouldDirect clock ip domain =>
    cases hstep
    rw [and_iff_left h.upstreamCache]
    exact Routing.AppState.size_directCache_shouldDirect_le_iff h.directCache
  | getCachedUpstream now clientIp targetIp domain =>
    cases hstep
    exact iff_of_true ⟨h.directCache, size_getCachedUpstream_le.trans h.upstreamCache⟩ trivial
  | cacheUpstream retain now clientIp targetIp domain up =>
    cases hstep
    rw [and_iff_right h.directCache]
    exact size_cacheUpstream_le_iff h.upstreamCache
  | removeCachedUpstream clientIp targetIp domain =>
    cases hstep
    have hle := (HashMap.size_erase_le sh.upstreamCache
      (clientIp, targetIp, normalizeDomain domain)).trans h.upstreamCache
    exact iff_of_true ⟨h.directCache, hle⟩ trivial

/-- **The capacity of the route caches.** In every run of calls that all find room the two caches
keep to `route_cache_max`; and wherever such a run leads, the next call exceeds it exactly if it
finds no room. -/
theorem caches_within_capacity {sh : Shared}
    (h : Steps (callStep app) (fun sh call => call.HasRoom app sh) { route := .new mode } sh) :
    sh.WithinCapacity app ∧
      ∀ call sh', callStep app sh call = some sh' →
        (sh'.WithinCapacity app ↔ call.HasRoom app sh) := by
  have hsh : sh.WithinCapacity app := by
    refine h.invariant (I := fun sh => sh.WithinCapacity app) ⟨Nat.zero_le _, Nat.zero_le _⟩ ?_
    intro sh call sh' hsh hroom hstep
    exact (hsh.callStep_iff hstep).mpr hroom
  exact ⟨hsh, fun call sh' hstep => hsh.callStep_iff hstep⟩

/-- A capacity of one entry, a time to live of 5. The second key comes when the first entry is too
old. -/
theorem caches_within_capacity_nestedApp :
    ∃ sh, Steps (callStep nestedApp) (fun sh call => call.HasRoom nestedApp sh)
        { route := .new 0 } sh ∧
      sh.route.directCache.lookup (.v4 ⟨5, 6, 7, 8⟩, none) = some (false, 9) ∧
      sh.WithinCapacity nestedApp := by
  obtain ⟨sh, hsh, hentry⟩ : ∃ sh, Steps (callStep nestedApp)
      (fun sh call => call.HasRoom nestedApp sh) { route := .new 0 } sh ∧
        sh.route.directCache.lookup (.v4 ⟨5, 6, 7, 8⟩, none) = some (false, 9) :=
    exists_steps_of_guarded_run
      (l := [.shouldDirect ⟨0, fun _ => 0, 0⟩ (.v4 ⟨1, 2, 3, 4⟩) none,
        .shouldDirect ⟨9, fun _ => 9, 9⟩ (.v4 ⟨5, 6, 7, 8⟩) none])
      (p := fun sh call => decide (call.HasRoom nestedApp sh))
      (fun _ _ h => of_decide_eq_true h) (by decide +kernel)
  exact ⟨sh, hsh, hentry, (caches_within_capacity hsh).1⟩

/-- With a capacity of one entry, two addresses within the time to live make two. -/
theorem not_withinCapacity_nestedApp :
    0 < nestedApp.routeCacheTtl ∧ 1 ≤ nestedApp.routeCacheMax ∧
      ∃ sh, Reachable (callStep nestedApp) { route := .new 0 } sh ∧
        ¬sh.WithinCapacity nestedApp := by
  refine ⟨by decide, by decide, ?_⟩
  obtain ⟨sh, hsh, hsize⟩ : ∃ sh, Reachable (callStep nestedApp) { route := .new 0 } sh ∧
      sh.route.directCache.size = 2 :=
    exists_steps_of_run
      (l := [.shouldDirect ⟨0, fun _ => 0, 0⟩ (.v4 ⟨1, 2, 3, 4⟩) none,
        .shouldDirect ⟨1, fun _ => 1, 1⟩ (.v4 ⟨5, 6, 7, 8⟩) none])
      (fun _ _ _ => trivial) (by decide +kernel)
  refine ⟨sh, hsh, fun h => ?_⟩
  have hle := h.directCache
  rw [hsize] at hle
  exact absurd hle (by decide)

end XtpRs.Tcp
