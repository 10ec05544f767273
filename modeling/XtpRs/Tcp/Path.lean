import XtpRs.Tcp.CacheAge
import XtpRs.Tcp.Failover

/-!
# The way of a connection

Which way a connection takes is settled in pieces: the decision is made before or after the sniff,
the group is looked up for the domain that is known then, and the upstream comes from the cache,
where another connection has left it, or from `try_connect_socks5_group`. The policy of the
configuration says in one sentence what comes out: the connection goes out directly if
`should_direct` says so for the sniffed domain, and otherwise over an upstream of the group of its
client, or of `default`.

## Main definitions

* `AppState.Serves`: an upstream is of the group of a client, or of `default`.
* `AppState.Permits`: the policy.
* `Conn.path`: the way of a connection whose relay runs.
* `St.Selects`: what `pick_and_connect` returns comes from `try_connect_socks5_group`.

## Main results

* `Failover.serves_of_tryConnect`: the loop returns an upstream of the group or of `default`.
* `St.PathsOk.step`: every step keeps the cache, and the connections, within the policy.
* `St.PathsOk.permits`: the way of a connection whose relay runs is the policy's.
-/

namespace XtpRs.Tcp

open Lib Routing Upstream

variable {parseIpNet : Str → Option IpNet} {app : AppState parseIpNet} {set : UpstreamSet}
  {mode : UInt8}

/-! ### The policy -/

/-- The way of a flow. -/
inductive Path
  | direct
  | proxied (up : Upstream)
  deriving DecidableEq

namespace AppState

/-- The upstream is of the group of the client, or of `default`. -/
def Serves (app : AppState parseIpNet) (set : UpstreamSet) (clientIp dstIp : IpAddr)
    (domain : Option Str) (up : Upstream) : Prop :=
  up ∈ members set (app.lookupUpstreamGroup clientIp dstIp domain) ∨ up ∈ members set defaultGroup

/-- **The policy.** Which ways a flow of a client to an address may take, if it is for a domain. -/
def Permits (app : AppState parseIpNet) (set : UpstreamSet) (mode : UInt8)
    (clientIp dstIp : IpAddr) (domain : Option Str) : Path → Prop
  | .direct => app.referenceDecision (.ofUInt8 mode) dstIp domain = true
  | .proxied up =>
    app.referenceDecision (.ofUInt8 mode) dstIp domain = false ∧
      app.Serves set clientIp dstIp domain up

/-- The group does not depend on how the domain is written. -/
theorem lookupUpstreamGroup_normalizeDomain (clientIp dstIp : IpAddr) (domain : Option Str) :
    app.lookupUpstreamGroup clientIp dstIp (normalizeDomain domain) =
      app.lookupUpstreamGroup clientIp dstIp domain := by
  have hlookup (table : DomainRouteTable) (name : Str) :
      table.lookup (canonicalDomain name) = table.lookup name := by
    rw [DomainRouteTable.lookup, DomainRouteTable.lookup, canonicalDomain_idem]
  rw [lookupUpstreamGroup, lookupUpstreamGroup, Config.lookupUpstreamGroup_eq,
    Config.lookupUpstreamGroup_eq]
  cases domain with
  | none => rfl
  | some name => simp only [normalizeDomain, Option.map_some, Option.bind_some, hlookup]

theorem serves_normalizeDomain {clientIp dstIp : IpAddr} {domain : Option Str} {up : Upstream} :
    app.Serves set clientIp dstIp (normalizeDomain domain) up ↔
      app.Serves set clientIp dstIp domain up := by
  rw [Serves, Serves, lookupUpstreamGroup_normalizeDomain]

/-- Nor does the decision. -/
theorem referenceDecision_normalizeDomain (proxyMode : ProxyMode) (ip : IpAddr)
    (domain : Option Str) :
    app.referenceDecision proxyMode ip (normalizeDomain domain) =
      app.referenceDecision proxyMode ip domain := by
  have hgeosite (compiled : CompiledGeosite) (tag name : Str) :
      compiledGeositeContains compiled tag (canonicalDomain name) =
        compiledGeositeContains compiled tag name := by
    simp only [compiledGeositeContains, canonicalDomain_idem]
  cases proxyMode with
  | global | bypass => rfl
  | smart =>
    rw [Routing.AppState.referenceDecision_smart, Routing.AppState.referenceDecision_smart]
    cases domain with
    | none => rfl
    | some name =>
      simp only [normalizeDomain, Option.map_some, Routing.AppState.domainRules,
        canonicalDomain_idem, hgeosite]

end AppState

/-! ### What `try_connect_socks5_group` returns -/

namespace Failover

/-- Every result of the loop, however it is left, is a member of the groups of its phases. -/
theorem mem_of_loop {group : Str} {exclude : Option Str} {fuel : ℕ} {rounds : ℕ → Round}
    {s : State} {result : Result} {up : Upstream} (hs : Inv set group exclude s)
    (h : loop set fuel rounds s = some result) (hup : result.upstream = some up) :
    up ∈ members set group ∨ up ∈ members set defaultGroup := by
  induction fuel generalizing rounds s with
  | zero => cases h
  | succ fuel ih =>
    rw [loop] at h
    rcases iteration_cases set s (rounds 0) with ⟨-, -, hiter⟩ | ⟨-, hgroup, hiter⟩ |
      ⟨up', hup', hiter⟩ | ⟨up', hup', hiter⟩
    · rw [hiter] at h
      cases h
      cases hup
    · rw [hiter] at h
      exact ih (hs.toDefault hgroup) h
    · rw [hiter] at h
      cases h
      exact (hs.exhaustive_of_some hup').belongs up hup
    · rw [hiter] at h
      exact ih (hs.attempt hup') h

/-- The loop returns an upstream of the group or of `default`. -/
theorem serves_of_tryConnect {clientIp dstIp : IpAddr} {domain exclude : Option Str} {fuel : ℕ}
    {rounds : ℕ → Round} {result : Result} {up : Upstream}
    (h : tryConnectSocks5Group set fuel rounds (app.lookupUpstreamGroup clientIp dstIp domain)
      exclude = some result) (hup : result.upstream = some up) :
    app.Serves set clientIp dstIp domain up :=
  mem_of_loop (inv_start set _ exclude) h hup

end Failover

/-! ### Connections within the policy -/

/-- The way of a connection whose relay runs. -/
def Conn.path (conn : Conn) : Option Path :=
  match conn.point with
  | .relaying none => some .direct
  | .relaying (some up) => some (.proxied up)
  | _ => none

/-- The upstream is for a connection, if it is for the domain. -/
def Conn.Serves (app : AppState parseIpNet) (set : UpstreamSet) (conn : Conn)
    (domain : Option Str) (up : Upstream) : Prop :=
  app.Serves set conn.clientAddr.ip conn.origDst.ip domain up

/-- What a connection does after the decision conforms to it. -/
def Conn.PathOk (app : AppState parseIpNet) (set : UpstreamSet) (conn : Conn) : Prop :=
  match conn.point with
  | .start | .askedIp _ | .flagged _ _ _ | .sniffed _ _ _ | .failed => True
  | .decided (.direct _) _ | .relaying none => conn.decision = some true
  | .decided _ _ | .picking _ _ => conn.decision = some false
  | .cachedUpstream domain up | .connected domain up =>
    conn.decision = some false ∧ conn.Serves app set domain up
  | .connecting domain group _ =>
    conn.decision = some false ∧
      group = app.lookupUpstreamGroup conn.clientAddr.ip conn.origDst.ip domain
  | .relaying (some up) => conn.decision = some false ∧ conn.Serves app set conn.sniffResult up

/-- Every upstream in the cache is for the connections with its key. -/
def Shared.CacheOk (app : AppState parseIpNet) (set : UpstreamSet) (sh : Shared) : Prop :=
  sh.upstreamCache.All fun key up _ => app.Serves set key.1 key.2.1 key.2.2 up

/-- What `pick_and_connect` returns in an event comes from `try_connect_socks5_group`. -/
def Conn.Selects (set : UpstreamSet) (conn : Conn) : Event → Prop
  | .connectGroup result => ∀ domain group exclude, conn.point = .connecting domain group exclude →
      ∃ fuel rounds r, Failover.tryConnectSocks5Group set fuel rounds group exclude = some r ∧
        result = r.upstream
  | _ => True

/-- What `pick_and_connect` returns in an action comes from `try_connect_socks5_group`. -/
def St.Selects (set : UpstreamSet) (st : St) : Action → Prop
  | .accept _ _ _ _ => True
  | .advance id event => ∀ conn, st.conns.lookup id = some conn → conn.Selects set event

section Steps

variable {sh sh' : Shared} {conn conn' : Conn} {clock : Readings} {event : Event}

theorem Conn.pathOk_decide (conn : Conn) (direct : Bool) (domain : Option Str) :
    (conn.decide direct domain).PathOk app set := by
  cases direct with
  | true => exact rfl
  | false => cases domain <;> exact rfl

theorem Conn.PathOk.runStep (h : conn.PathOk app set)
    (hstep : conn.runStep app sh clock = some (sh', conn')) : conn'.PathOk app set := by
  unfold Conn.runStep at hstep
  unfold Conn.PathOk at h
  cases hp : conn.point with
  | start | askedIp directByIp =>
    rw [hp] at hstep
    cases hstep
    trivial
  | flagged directByIp geosite upstream =>
    rw [hp] at hstep
    dsimp only at hstep
    split_ifs at hstep
    · cases hstep
      exact conn.pathOk_decide _ _
    all_goals
      cases hstep
      trivial
  | sniffed directByIp geosite domain =>
    rw [hp] at hstep
    dsimp only at hstep
    split_ifs at hstep
    all_goals
      cases hstep
      exact conn.pathOk_decide _ _
  | picking domain exclude =>
    rw [hp] at hstep h
    cases hstep
    exact ⟨h, rfl⟩
  | decided target domain | cachedUpstream domain cachedUp | connecting domain group exclude
  | connected domain up | relaying up | failed =>
    rw [hp] at hstep
    cases hstep

/-- **One step of a connection.** The upstream it takes from the cache, or has selected, is of its
group or of `default`. -/
theorem Conn.PathOk.step (h : conn.PathOk app set) (hok : conn.Ok app mode)
    (hcache : sh.CacheOk app set) (hsel : conn.Selects set event)
    (hstep : conn.step app sh event = some (sh', conn')) : conn'.PathOk app set := by
  have hsame := hok.point
  unfold Conn.PointOk at hsame
  have hpath := h
  unfold Conn.PathOk at hpath
  cases event with
  | run clock => exact h.runStep hstep
  | connect ok =>
    unfold Conn.step at hstep
    dsimp only at hstep
    split at hstep
    · rename_i addr domain hp
      rw [hp] at hpath
      cases hstep
      cases ok with
      | true => exact hpath
      | false => trivial
    · rename_i domain cachedUp hp
      rw [hp] at hpath
      split_ifs at hstep
      · cases hstep
        exact hpath
      · cases hstep
        exact hpath.1
    · cases hstep
  | getCached now =>
    unfold Conn.step at hstep
    dsimp only at hstep
    split at hstep
    · cases hstep
    · rename_i target domain hdirect hp
      have hdecision : conn.decision = some false := by
        rw [hp] at hpath
        cases target with
        | direct addr => exact absurd rfl (hdirect addr)
        | socks5Ip addr | socks5Domain host port => exact hpath
      cases hstep
      cases hget : (app.getCachedUpstream sh.upstreamCache now conn.clientAddr.ip conn.origDst.ip
          domain).1 with
      | none => exact hdecision
      | some up =>
        refine ⟨hdecision, ?_⟩
        unfold AppState.getCachedUpstream at hget
        split_ifs at hget
        obtain ⟨inserted, hserves, -⟩ := hcache.get_fst hget
        exact AppState.serves_normalizeDomain.mp hserves
    · cases hstep
  | connectGroup result =>
    unfold Conn.step at hstep
    dsimp only at hstep
    split at hstep
    · rename_i domain group exclude hp
      rw [hp] at hpath
      cases hstep
      obtain ⟨fuel, rounds, r, hr, rfl⟩ := hsel domain group exclude hp
      cases hup : r.upstream with
      | none => trivial
      | some up =>
        obtain ⟨hdecision, rfl⟩ := hpath
        exact ⟨hdecision, Failover.serves_of_tryConnect hr hup⟩
    · cases hstep
  | cache retain now =>
    unfold Conn.step at hstep
    dsimp only at hstep
    split at hstep
    · rename_i domain up hp
      rw [hp] at hpath hsame
      cases hstep
      refine ⟨hpath.1, ?_⟩
      have hserves : conn.Serves app set domain up := hpath.2
      have hgroup : conn.SameGroup app domain := hsame
      unfold Conn.Serves AppState.Serves at hserves ⊢
      rwa [← hgroup]
    · cases hstep

/-- **The cache.** A connection writes an upstream that is for its own key. -/
theorem Shared.CacheOk.step (h : sh.CacheOk app set) (hconn : conn.PathOk app set)
    (hstep : conn.step app sh event = some (sh', conn')) : sh'.CacheOk app set := by
  by_cases hwrite : ∃ retain now, event = .cache retain now
  · obtain ⟨retain, now, rfl⟩ := hwrite
    obtain ⟨domain, up, hp, hcache⟩ := Conn.upstreamCache_of_cache hstep
    unfold Conn.PathOk at hconn
    rw [hp] at hconn
    unfold Shared.CacheOk
    rw [hcache]
    unfold AppState.cacheUpstream
    split_ifs
    · exact h
    · exact h.insertPruned (AppState.serves_normalizeDomain.mpr hconn.2)
  · exact Conn.all_upstreamCache_of_step h (fun retain now he => hwrite ⟨retain, now, he⟩) hstep

end Steps

/-! ### All connections -/

/-- What holds of the system, with the ways of the connections. -/
structure St.PathsOk (app : AppState parseIpNet) (set : UpstreamSet) (mode : UInt8) (st : St) :
    Prop where
  ok : st.Ok app mode
  cache : st.shared.CacheOk app set
  conns : ∀ id conn, st.conns.lookup id = some conn → conn.PathOk app set

namespace St.PathsOk

variable {st st' : St} {action : Action} {id : ℕ} {conn : Conn}

theorem new (app : AppState parseIpNet) (set : UpstreamSet) (mode : UInt8) :
    (St.new mode).PathsOk app set mode where
  ok := ⟨⟨rfl, TtlCache.Sound.empty _⟩, fun _ _ h => by cases h⟩
  cache := TtlCache.All.empty _
  conns _ _ h := by cases h

theorem step (h : st.PathsOk app set mode) (hsel : st.Selects set action)
    (hstep : Tcp.step app st action = some st') : st'.PathsOk app set mode := by
  have hok := h.ok.step hstep
  cases action with
  | accept id clientAddr origDst sniffResult =>
    unfold Tcp.step at hstep
    dsimp only at hstep
    split_ifs at hstep
    cases hstep
    refine ⟨hok, h.cache, fun id' conn hconn => ?_⟩
    rw [HashMap.lookup_insert_eq_ite] at hconn
    split_ifs at hconn
    · cases hconn
      trivial
    · exact h.conns id' conn hconn
  | advance id event =>
    unfold Tcp.step at hstep
    dsimp only at hstep
    split at hstep
    · cases hstep
    · rename_i conn hconn
      obtain ⟨⟨sh, conn'⟩, hr, rfl⟩ := Option.map_eq_some_iff.mp hstep
      have hconn' := h.conns id conn hconn
      refine ⟨hok, h.cache.step hconn' hr, fun id' conn'' hlookup => ?_⟩
      rw [HashMap.lookup_insert_eq_ite] at hlookup
      split_ifs at hlookup
      · cases hlookup
        exact hconn'.step (h.ok.conns id conn hconn) h.cache (hsel conn hconn) hr
      · exact h.conns id' conn'' hlookup

/-- The way of a connection whose relay runs is the policy's for the domain that sniffing would
find. -/
theorem permits (h : st.PathsOk app set mode) (hconn : st.conns.lookup id = some conn)
    {path : Path} (hpath : conn.path = some path) :
    app.Permits set mode conn.clientAddr.ip conn.origDst.ip conn.sniffResult path := by
  have hdecision := (h.ok.conns id conn hconn).decision
  have hok := h.conns id conn hconn
  unfold Conn.PathOk at hok
  unfold Conn.path at hpath
  cases hp : conn.point with
  | relaying up =>
    rw [hp] at hok hpath
    cases up with
    | none =>
      cases hpath
      exact (hdecision true hok).symm
    | some up =>
      cases hpath
      exact ⟨(hdecision false hok.1).symm, hok.2⟩
  | start | askedIp directByIp | flagged directByIp geosite upstream
  | sniffed directByIp geosite domain | decided target domain | cachedUpstream domain cachedUp
  | picking domain exclude | connecting domain group exclude | connected domain up | failed =>
    rw [hp] at hpath
    cases hpath

end St.PathsOk

end XtpRs.Tcp
