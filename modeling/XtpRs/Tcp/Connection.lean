import XtpRs.Routing.Direct
import XtpRs.Routing.Groups

/-!
# TCP connections

`handle_tcp_connection` of `src/tcp.rs` decides whether a connection goes out directly, sniffs a
domain only where it may matter, and connects a proxied connection through an upstream of the group
of its client. Any number of connections run at the same time and share the route cache and the
cache of upstreams.

A connection is a program point and what the task has computed so far. A step of a connection is one
access to the shared state or one await; its outcome (the readings of the clock, the result of a
connection attempt) is part of the action. What `sniff_domain` returns if it is run is fixed when
the connection is accepted. Penalties for upstreams, the relay and the log are left out.

## Main definitions

* `AppState`: what `AppState::build` makes and a connection reads.
* `needGeositeSniff`, `needUpstreamDomainSniff`: the conditions for sniffing.
* `Conn.step`, `step`: one step of a connection, and of all connections.

## Main results

* `sniff_skip_transparent`: every decision and every group is the one for the domain that sniffing
  would have found.
-/

namespace XtpRs.Tcp

open Lib Routing Upstream

/-- What a connection reads of an `AppState` that `AppState::build` made. -/
structure AppState (parseIpNet : Str → Option IpNet) extends Routing.AppState where
  config : Config
  routes : Routes
  built : config.buildRoutes parseIpNet = .ok routes

/-- `TcpUpstreamTarget`. -/
inductive TcpUpstreamTarget
  | direct (addr : SocketAddr)
  | socks5Ip (addr : SocketAddr)
  | socks5Domain (host : Str) (port : UInt16)
  deriving DecidableEq, Repr

/-- `decide_tcp_upstream_target`. -/
def decideTcpUpstreamTarget (origDst : SocketAddr) (direct : Bool) (sniffedSni : Option Str) :
    TcpUpstreamTarget :=
  if direct then .direct origDst
  else
    match sniffedSni with
    | some host => .socks5Domain host origDst.port
    | none => .socks5Ip origDst

/-- The key of `UpstreamCache`. -/
abbrev UpstreamKey := IpAddr × IpAddr × Option Str

/-- What the connections share. -/
structure Shared where
  route : RouteState
  upstreamCache : TtlCache UpstreamKey Upstream := ∅

/-- Where a connection stands, with the local variables that are still read. -/
inductive Point
  | start
  | askedIp (directByIp : Bool)
  | flagged (directByIp needSniffForGeosite needSniffForUpstream : Bool)
  | sniffed (directByIp needSniffForGeosite : Bool) (domain : Option Str)
  | decided (target : TcpUpstreamTarget) (domain : Option Str)
  | cachedUpstream (domain : Option Str) (cachedUp : Upstream)
  | picking (domain : Option Str) (exclude : Option Str)
  | connecting (domain : Option Str) (group : Str) (exclude : Option Str)
  | connected (domain : Option Str) (up : Upstream)
  | relaying (up : Option Upstream)
  | failed
  deriving DecidableEq

/-- A connection. `sniffResult` is what `sniff_domain` returns if it is run; `decision` is whether
the connection goes out directly, and `groups` the groups it has looked up. -/
structure Conn where
  clientAddr : SocketAddr
  origDst : SocketAddr
  sniffResult : Option Str
  point : Point := .start
  decision : Option Bool := none
  groups : List Str := []
  deriving DecidableEq

/-- What a step of a connection depends on besides the state. -/
inductive Event
  | run (clock : Readings)
  | connect (ok : Bool)
  | getCached (now : ℕ)
  | connectGroup (result : Option Upstream)
  | cache (retain : UpstreamKey → ℕ) (now : ℕ)

namespace AppState

variable {parseIpNet : Str → Option IpNet} (app : AppState parseIpNet)

/-- `AppState::need_geosite_sniff`. -/
def needGeositeSniff (proxyMode : UInt8) : Bool :=
  !app.forceDirectDomains.isEmpty || !app.forceSocks5Domains.isEmpty ||
    app.compiledGeosite.isSome &&
      (!app.proxyGeositeTags.isEmpty || !app.directGeositeTags.isEmpty) &&
      ProxyMode.ofUInt8 proxyMode == .smart

/-- `AppState::need_upstream_domain_sniff`. -/
def needUpstreamDomainSniff (clientIp : IpAddr) : Bool :=
  app.config.clientDomainRoutes.size != 0 && (app.routes.clientDomainRoutes.lookup clientIp).isSome

/-- `AppState::lookup_upstream_group`. -/
def lookupUpstreamGroup (clientIp dstIp : IpAddr) (domain : Option Str) : Str :=
  app.routes.lookupUpstreamGroup clientIp dstIp domain

/-- `AppState::get_cached_upstream`. -/
def getCachedUpstream (cache : TtlCache UpstreamKey Upstream) (now : ℕ) (clientIp targetIp : IpAddr)
    (domain : Option Str) : Option Upstream × TtlCache UpstreamKey Upstream :=
  if app.routeCacheTtl = 0 then (none, cache)
  else cache.get app.routeCacheTtl now (clientIp, targetIp, normalizeDomain domain)

/-- `AppState::cache_upstream`. -/
def cacheUpstream (cache : TtlCache UpstreamKey Upstream) (retain : UpstreamKey → ℕ) (now : ℕ)
    (clientIp targetIp : IpAddr) (domain : Option Str) (up : Upstream) :
    TtlCache UpstreamKey Upstream :=
  if app.routeCacheTtl = 0 then cache
  else cache.insertPruned app.routeCacheMax app.routeCacheTtl retain now
    (clientIp, targetIp, normalizeDomain domain) up

/-- `AppState::remove_cached_upstream`. -/
def removeCachedUpstream (cache : TtlCache UpstreamKey Upstream) (clientIp targetIp : IpAddr)
    (domain : Option Str) : TtlCache UpstreamKey Upstream :=
  cache.erase (clientIp, targetIp, normalizeDomain domain)

end AppState

namespace Conn

variable {parseIpNet : Str → Option IpNet} (app : AppState parseIpNet)

/-- The final decision, on the fast path and after it. -/
def decide (conn : Conn) (direct : Bool) (domain : Option Str) : Conn :=
  { conn with
    point := .decided (decideTcpUpstreamTarget conn.origDst direct domain) domain
    decision := some direct }

/-- The part of `handle_tcp_connection` up to the decision. -/
def runStep (sh : Shared) (conn : Conn) (clock : Readings) : Option (Shared × Conn) :=
  match conn.point with
  | .start =>
    let (direct, route) := app.shouldDirect sh.route clock conn.origDst.ip none
    some ({ sh with route }, { conn with point := .askedIp direct })
  | .askedIp directByIp =>
    some (sh, { conn with
      point := .flagged directByIp (app.needGeositeSniff sh.route.proxyMode)
        (app.needUpstreamDomainSniff conn.clientAddr.ip) })
  | .flagged directByIp geosite upstream =>
    if directByIp && !geosite && !upstream then some (sh, conn.decide true none)
    else if geosite || (!directByIp && upstream) then
      some (sh, { conn with point := .sniffed directByIp geosite conn.sniffResult })
    else some (sh, { conn with point := .sniffed directByIp geosite none })
  | .sniffed directByIp geosite domain =>
    if geosite then
      let (direct, route) := app.shouldDirect sh.route clock conn.origDst.ip domain
      some ({ sh with route }, conn.decide direct domain)
    else some (sh, conn.decide directByIp domain)
  | .picking domain exclude =>
    let group := app.lookupUpstreamGroup conn.clientAddr.ip conn.origDst.ip domain
    some (sh, { conn with
      point := .connecting domain group exclude
      groups := conn.groups ++ [group] })
  | _ => none

/-- One step of `handle_tcp_connection`. -/
def step (sh : Shared) (conn : Conn) : Event → Option (Shared × Conn)
  | .run clock => conn.runStep app sh clock
  | .connect ok =>
    match conn.point with
    | .decided (.direct _) _ =>
      some (sh, { conn with point := if ok then .relaying none else .failed })
    | .cachedUpstream domain cachedUp =>
      if ok then some (sh, { conn with point := .connected domain cachedUp })
      else
        let upstreamCache :=
          AppState.removeCachedUpstream sh.upstreamCache conn.clientAddr.ip conn.origDst.ip domain
        some ({ sh with upstreamCache }, { conn with point := .picking domain (some cachedUp.id) })
    | _ => none
  | .getCached now =>
    match conn.point with
    | .decided (.direct _) _ => none
    | .decided _ domain =>
      let (found, upstreamCache) :=
        app.getCachedUpstream sh.upstreamCache now conn.clientAddr.ip conn.origDst.ip domain
      let point :=
        match found with
        | some cachedUp => .cachedUpstream domain cachedUp
        | none => .picking domain none
      some ({ sh with upstreamCache }, { conn with point })
    | _ => none
  | .connectGroup result =>
    match conn.point with
    | .connecting domain _ _ =>
      let point :=
        match result with
        | some up => .connected domain up
        | none => .failed
      some (sh, { conn with point })
    | _ => none
  | .cache retain now =>
    match conn.point with
    | .connected domain up =>
      let upstreamCache :=
        app.cacheUpstream sh.upstreamCache retain now conn.clientAddr.ip conn.origDst.ip domain up
      some ({ sh with upstreamCache }, { conn with point := .relaying (some up) })
    | _ => none

end Conn

/-- The connections and what they share. -/
structure St where
  shared : Shared
  conns : HashMap ℕ Conn := ∅

/-- A connection is accepted, or makes a step. -/
inductive Action
  | accept (id : ℕ) (clientAddr origDst : SocketAddr) (sniffResult : Option Str)
  | advance (id : ℕ) (event : Event)

/-- The state of a new generation. -/
def St.new (proxyMode : UInt8) : St where
  shared := { route := .new proxyMode }

/-- One step of the system. -/
def step {parseIpNet : Str → Option IpNet} (app : AppState parseIpNet) (st : St) :
    Action → Option St
  | .accept id clientAddr origDst sniffResult =>
    if (st.conns.lookup id).isSome then none
    else some { st with conns := st.conns.insert id { clientAddr, origDst, sniffResult } }
  | .advance id event =>
    match st.conns.lookup id with
    | none => none
    | some conn =>
      (conn.step app st.shared event).map fun r =>
        { shared := r.1, conns := st.conns.insert id r.2 }

/-! ### What a domain can change -/

namespace AppState

variable {parseIpNet : Str → Option IpNet} {app : AppState parseIpNet}

/-- Where no domain is needed for the decision, none changes it. -/
theorem referenceDecision_of_not_needGeositeSniff {proxyMode : UInt8}
    (h : app.needGeositeSniff proxyMode = false) (ip : IpAddr) (domain : Option Str) :
    app.referenceDecision (.ofUInt8 proxyMode) ip domain =
      app.referenceDecision (.ofUInt8 proxyMode) ip none := by
  simp only [needGeositeSniff, Bool.or_eq_false_iff, Bool.not_eq_false'] at h
  obtain ⟨⟨hdirect, hsocks5⟩, hgeosite⟩ := h
  cases hmode : ProxyMode.ofUInt8 proxyMode with
  | global => rfl
  | bypass => rfl
  | smart =>
    have hrules : app.domainRules domain = none := by
      cases domain with
      | none => rfl
      | some domain =>
        simp only [Routing.AppState.domainRules, DomainSet.matchesCanonical_of_isEmpty hdirect,
          DomainSet.matchesCanonical_of_isEmpty hsocks5, Bool.false_eq_true, if_false]
        cases hcompiled : app.compiledGeosite with
        | none => rfl
        | some compiled =>
          rw [hcompiled, hmode] at hgeosite
          simp only [Option.isSome_some, Bool.true_and, beq_self_eq_true, Bool.and_true,
            Bool.or_eq_false_iff, Bool.not_eq_false', List.isEmpty_iff] at hgeosite
          rw [hgeosite.1, hgeosite.2]
          rfl
    rw [Routing.AppState.referenceDecision_smart, Routing.AppState.referenceDecision_smart, hrules]
    rfl

/-- Where no domain is needed for the group, none changes it. -/
theorem lookupUpstreamGroup_of_not_needUpstreamDomainSniff {clientIp : IpAddr}
    (h : app.needUpstreamDomainSniff clientIp = false) (dstIp : IpAddr) (domain : Option Str) :
    app.lookupUpstreamGroup clientIp dstIp domain =
      app.lookupUpstreamGroup clientIp dstIp none := by
  have hnone : ∀ name, (app.routes.clientDomainRoutes.findMapMatching clientIp
      fun table => table.lookup name) = none := by
    intro name
    obtain ⟨entries, hentries, hroutes⟩ :=
      buildCidrRoutes_eq_ok_iff.mp (Config.buildRoutes_eq_ok_iff.mp app.built).2.1
    rw [hroutes, ClientCidrRoutes.findMapMatching_eq_none_iff]
    intro e he hcontains
    exfalso
    rw [needUpstreamDomainSniff, Bool.and_eq_false_iff] at h
    obtain hempty | hlookup := h
    · have hnil : app.config.clientDomainRoutes.toList = [] := by
        rw [HashMap.size, bne_eq_false_iff_eq, List.length_eq_zero_iff] at hempty
        rw [HashMap.toList, hempty, List.map_nil]
      rw [hnil] at hentries
      cases hentries
      cases he
    · rw [Option.isSome_eq_false_iff, Option.isNone_iff_eq_none, hroutes,
        ClientCidrRoutes.lookup_eq_findMapMatching,
        ClientCidrRoutes.findMapMatching_eq_none_iff] at hlookup
      cases hlookup e he hcontains
  rw [lookupUpstreamGroup, lookupUpstreamGroup, Config.lookupUpstreamGroup_eq,
    Config.lookupUpstreamGroup_eq]
  cases domain with
  | none => rfl
  | some name => rw [Option.bind_some, hnone name, Option.bind_none]

end AppState

/-! ### Every step -/

section Steps

variable {parseIpNet : Str → Option IpNet} {app : AppState parseIpNet} {mode : UInt8}

/-- The decision for the domain that sniffing would find. -/
def Conn.sniffedDecision (app : AppState parseIpNet) (mode : UInt8) (conn : Conn) : Bool :=
  app.referenceDecision (.ofUInt8 mode) conn.origDst.ip conn.sniffResult

/-- The domain selects the group that the one found by sniffing would select. -/
def Conn.SameGroup (app : AppState parseIpNet) (conn : Conn) (domain : Option Str) : Prop :=
  app.lookupUpstreamGroup conn.clientAddr.ip conn.origDst.ip domain =
    app.lookupUpstreamGroup conn.clientAddr.ip conn.origDst.ip conn.sniffResult

/-- What the local variables of a connection say at each point. -/
def Conn.PointOk (app : AppState parseIpNet) (mode : UInt8) (conn : Conn) : Prop :=
  match conn.point with
  | .start | .relaying _ | .failed => True
  | .askedIp directByIp =>
    directByIp = app.referenceDecision (.ofUInt8 mode) conn.origDst.ip none
  | .flagged directByIp geosite upstream =>
    directByIp = app.referenceDecision (.ofUInt8 mode) conn.origDst.ip none ∧
      geosite = app.needGeositeSniff mode ∧
      upstream = app.needUpstreamDomainSniff conn.clientAddr.ip
  | .sniffed directByIp geosite domain =>
    directByIp = app.referenceDecision (.ofUInt8 mode) conn.origDst.ip none ∧
      geosite = app.needGeositeSniff mode ∧
      (geosite = true → domain = conn.sniffResult) ∧
      (geosite = false → directByIp = true ∨ conn.SameGroup app domain)
  | .decided target domain => (∀ addr, target ≠ .direct addr) → conn.SameGroup app domain
  | .cachedUpstream domain _ | .picking domain _ | .connecting domain _ _ | .connected domain _ =>
    conn.SameGroup app domain

/-- The decision and the groups of a connection are those for the domain that sniffing would
find. -/
structure Conn.Ok (app : AppState parseIpNet) (mode : UInt8) (conn : Conn) : Prop where
  decision : ∀ direct, conn.decision = some direct → direct = conn.sniffedDecision app mode
  groups : ∀ group ∈ conn.groups,
    group = app.lookupUpstreamGroup conn.clientAddr.ip conn.origDst.ip conn.sniffResult
  point : conn.PointOk app mode

/-- What holds of the shared state. -/
structure Shared.Ok (app : AppState parseIpNet) (mode : UInt8) (sh : Shared) : Prop where
  proxyMode : sh.route.proxyMode = mode
  sound : sh.route.directCache.Sound fun key => app.ipRules key.1

theorem Shared.Ok.shouldDirect {sh : Shared} (h : sh.Ok app mode) (clock : Readings) (ip : IpAddr)
    (domain : Option Str) :
    (app.shouldDirect sh.route clock ip domain).1 =
        app.referenceDecision (.ofUInt8 mode) ip domain ∧
      Shared.Ok app mode { sh with route := (app.shouldDirect sh.route clock ip domain).2 } := by
  refine ⟨?_, ?_, ?_⟩
  · rw [Routing.AppState.shouldDirect_fst h.sound, h.proxyMode]
  · exact Routing.AppState.proxyMode_shouldDirect.trans h.proxyMode
  · exact Routing.AppState.sound_shouldDirect h.sound

/-- A decision for the right domain, or for one that cannot matter. -/
theorem Conn.Ok.decide {conn : Conn} (h : conn.Ok app mode) {direct : Bool} {domain : Option Str}
    (hdirect : direct = conn.sniffedDecision app mode)
    (hgroup : direct = false → conn.SameGroup app domain) :
    (conn.decide direct domain).Ok app mode where
  decision := by
    intro d hd
    cases hd
    exact hdirect
  groups := h.groups
  point := by
    intro htarget
    refine hgroup ?_
    cases direct with
    | false => rfl
    | true => exact absurd rfl (htarget conn.origDst)

/-- A step that moves to another point and neither decides nor looks up a group. -/
theorem Conn.Ok.move {conn : Conn} (h : conn.Ok app mode) {point : Point}
    (hpoint : ({ conn with point } : Conn).PointOk app mode) :
    ({ conn with point } : Conn).Ok app mode :=
  ⟨h.decision, h.groups, hpoint⟩

/-- Without domain rules the decision for the address is that for any domain. -/
theorem Conn.eq_sniffedDecision {conn : Conn} {directByIp : Bool}
    (hdirect : directByIp = app.referenceDecision (.ofUInt8 mode) conn.origDst.ip none)
    (hgeosite : app.needGeositeSniff mode = false) :
    directByIp = conn.sniffedDecision app mode := by
  rw [Conn.sniffedDecision, AppState.referenceDecision_of_not_needGeositeSniff hgeosite, hdirect]

/-- What is left unsniffed is a direct connection, or no group depends on its domain. -/
theorem Conn.direct_or_sameGroup {conn : Conn} {directByIp : Bool}
    (hsniff : ¬(!directByIp && app.needUpstreamDomainSniff conn.clientAddr.ip) = true) :
    directByIp = true ∨ conn.SameGroup app none := by
  cases hd : directByIp with
  | true => exact .inl rfl
  | false =>
    right
    have hnot : app.needUpstreamDomainSniff conn.clientAddr.ip = false := by
      simpa [hd] using hsniff
    exact (AppState.lookupUpstreamGroup_of_not_needUpstreamDomainSniff hnot _ _).symm

/-- **The decision of a connection.** -/
theorem Conn.Ok.runStep {sh sh' : Shared} {conn conn' : Conn} {clock : Readings}
    (h : conn.Ok app mode) (hsh : sh.Ok app mode)
    (hstep : conn.runStep app sh clock = some (sh', conn')) :
    sh'.Ok app mode ∧ conn'.Ok app mode := by
  have hpoint := h.point
  unfold Conn.runStep at hstep
  unfold Conn.PointOk at hpoint
  cases hp : conn.point with
  | start =>
    rw [hp] at hstep
    cases hstep
    obtain ⟨hdirect, hsh'⟩ := hsh.shouldDirect clock conn.origDst.ip none
    exact ⟨hsh', h.move hdirect⟩
  | askedIp directByIp =>
    rw [hp] at hstep hpoint
    cases hstep
    exact ⟨hsh, h.move ⟨hpoint, by rw [hsh.proxyMode], rfl⟩⟩
  | flagged directByIp geosite upstream =>
    rw [hp] at hstep hpoint
    obtain ⟨hdirect, hgeosite, hupstream⟩ := hpoint
    dsimp only at hstep
    split_ifs at hstep with hfast hsniff
    · -- the fast path: no domain rule can apply
      simp only [Bool.and_eq_true, Bool.not_eq_true'] at hfast
      cases hstep
      refine ⟨hsh, h.decide ?_ fun hfalse => by cases hfalse⟩
      exact hfast.1.1.symm.trans (Conn.eq_sniffedDecision hdirect (hgeosite.symm.trans hfast.1.2))
    · cases hstep
      exact ⟨hsh, h.move ⟨hdirect, hgeosite, fun _ => rfl, fun _ => .inr rfl⟩⟩
    · cases hstep
      rw [Bool.or_eq_true, not_or] at hsniff
      refine ⟨hsh, h.move ⟨hdirect, hgeosite, fun htrue => absurd htrue hsniff.1, fun _ => ?_⟩⟩
      exact Conn.direct_or_sameGroup (hupstream ▸ hsniff.2)
  | sniffed directByIp geosite domain =>
    rw [hp] at hstep hpoint
    obtain ⟨hdirect, hgeosite, hdomain, hgroup⟩ := hpoint
    dsimp only at hstep
    split_ifs at hstep with hg
    · cases hstep
      obtain ⟨hdirect', hsh'⟩ := hsh.shouldDirect clock conn.origDst.ip domain
      refine ⟨hsh', h.decide ?_ fun _ => ?_⟩
      · rw [hdirect', hdomain hg]
        rfl
      · rw [hdomain hg]
        rfl
    · cases hstep
      rw [Bool.not_eq_true] at hg
      refine ⟨hsh, h.decide ?_ fun hfalse => ?_⟩
      · exact Conn.eq_sniffedDecision hdirect (hgeosite.symm.trans hg)
      · obtain htrue | hsame := hgroup hg
        · rw [hfalse] at htrue
          cases htrue
        · exact hsame
  | picking domain exclude =>
    rw [hp] at hstep hpoint
    cases hstep
    refine ⟨hsh, h.decision, fun group hgroup => ?_, hpoint⟩
    obtain hold | hnew := List.mem_append.mp hgroup
    · exact h.groups group hold
    · rw [List.mem_singleton.mp hnew]
      exact hpoint
  | decided target domain | cachedUpstream domain cachedUp | connecting domain group exclude
  | connected domain up | relaying up | failed =>
    rw [hp] at hstep
    cases hstep

/-- Other values of the cache of upstreams leave what holds of the shared state. -/
theorem Shared.Ok.setUpstreamCache {sh : Shared} (h : sh.Ok app mode)
    (upstreamCache : TtlCache UpstreamKey Upstream) :
    Shared.Ok app mode { sh with upstreamCache } :=
  ⟨h.proxyMode, h.sound⟩

/-- **One step of a connection.** -/
theorem Conn.Ok.step {sh sh' : Shared} {conn conn' : Conn} {event : Event} (h : conn.Ok app mode)
    (hsh : sh.Ok app mode) (hstep : conn.step app sh event = some (sh', conn')) :
    sh'.Ok app mode ∧ conn'.Ok app mode := by
  have hpoint := h.point
  unfold Conn.PointOk at hpoint
  cases event with
  | run clock => exact h.runStep hsh hstep
  | connect ok =>
    unfold Conn.step at hstep
    dsimp only at hstep
    split at hstep
    · cases hstep
      refine ⟨hsh, h.move ?_⟩
      cases ok <;> trivial
    · rename_i domain cachedUp hp
      rw [hp] at hpoint
      split_ifs at hstep
      · cases hstep
        exact ⟨hsh, h.move hpoint⟩
      · cases hstep
        exact ⟨hsh.setUpstreamCache _, h.move hpoint⟩
    · cases hstep
  | getCached now =>
    unfold Conn.step at hstep
    dsimp only at hstep
    split at hstep
    · cases hstep
    · rename_i target domain hdirect hp
      rw [hp] at hpoint
      cases hstep
      refine ⟨hsh.setUpstreamCache _, h.move ?_⟩
      have hsame : conn.SameGroup app domain := hpoint hdirect
      split
      · exact hsame
      · exact hsame
    · cases hstep
  | connectGroup result =>
    unfold Conn.step at hstep
    dsimp only at hstep
    split at hstep
    · rename_i domain group exclude hp
      rw [hp] at hpoint
      cases hstep
      refine ⟨hsh, h.move ?_⟩
      cases result with
      | none => trivial
      | some up => exact hpoint
    · cases hstep
  | cache retain now =>
    unfold Conn.step at hstep
    dsimp only at hstep
    split at hstep
    · cases hstep
      exact ⟨hsh.setUpstreamCache _, h.move trivial⟩
    · cases hstep

/-- What holds of the system. -/
structure St.Ok (app : AppState parseIpNet) (mode : UInt8) (st : St) : Prop where
  shared : st.shared.Ok app mode
  conns : ∀ id conn, st.conns.lookup id = some conn → conn.Ok app mode

theorem St.Ok.step {st st' : St} {action : Action} (h : st.Ok app mode)
    (hstep : Tcp.step app st action = some st') : st'.Ok app mode := by
  cases action with
  | accept id clientAddr origDst sniffResult =>
    unfold Tcp.step at hstep
    dsimp only at hstep
    split_ifs at hstep
    cases hstep
    refine ⟨h.shared, fun id' conn hconn => ?_⟩
    rw [HashMap.lookup_insert_eq_ite] at hconn
    split_ifs at hconn with hid
    · cases hconn
      exact ⟨fun _ hdirect => (Option.some_ne_none _ hdirect.symm).elim,
        fun _ hgroup => (List.not_mem_nil hgroup).elim, trivial⟩
    · exact h.conns id' conn hconn
  | advance id event =>
    unfold Tcp.step at hstep
    dsimp only at hstep
    split at hstep
    · cases hstep
    · rename_i conn hconn
      obtain ⟨⟨sh, conn'⟩, hr, rfl⟩ := Option.map_eq_some_iff.mp hstep
      obtain ⟨hsh, hconn'⟩ := (h.conns id conn hconn).step h.shared hr
      refine ⟨hsh, fun id' conn'' hlookup => ?_⟩
      rw [HashMap.lookup_insert_eq_ite] at hlookup
      split_ifs at hlookup with hid
      · cases hlookup
        exact hconn'
      · exact h.conns id' conn'' hlookup

/-- **Skipping the sniff changes nothing.** In every state that the connections reach under a fixed
mode, whether a connection goes out directly is what `should_direct` says for the domain that
sniffing would find, and every group it has looked up is the group for that domain. -/
theorem sniff_skip_transparent {st : St} {id : ℕ} {conn : Conn}
    (h : Reachable (step app) (St.new mode) st) (hconn : st.conns.lookup id = some conn) :
    (∀ direct, conn.decision = some direct → ∀ clock,
      (app.shouldDirect st.shared.route clock conn.origDst.ip conn.sniffResult).1 = direct) ∧
    ∀ group ∈ conn.groups,
      group = app.lookupUpstreamGroup conn.clientAddr.ip conn.origDst.ip conn.sniffResult := by
  have hok : st.Ok app mode := by
    refine h.invariant (I := St.Ok app mode) ⟨⟨rfl, TtlCache.Sound.empty _⟩, fun id conn h => ?_⟩
      fun _ _ _ hst _ hs => hst.step hs
    cases h
  obtain ⟨hdecision, hgroups, -⟩ := hok.conns id conn hconn
  refine ⟨fun direct hdirect clock => ?_, hgroups⟩
  rw [(hok.shared.shouldDirect clock _ _).1]
  exact (hdecision direct hdirect).symm

end Steps

/-! ### A connection that is not sniffed -/

/-- The tables of a configuration, or empty ones. -/
def builtRoutes (parseIpNet : Str → Option IpNet) (c : Config) : Routes :=
  (c.buildRoutes parseIpNet).toOption.getD ⟨{}, {}, {}⟩

theorem buildRoutes_eq_ok_builtRoutes {parseIpNet : Str → Option IpNet} {c : Config}
    (h : (c.buildRoutes parseIpNet).toOption.isSome = true) :
    c.buildRoutes parseIpNet = .ok (builtRoutes parseIpNet c) := by
  obtain ⟨routes, hroutes⟩ := Option.isSome_iff_exists.mp h
  rw [builtRoutes, hroutes]
  exact toOption_eq_some_iff.mp hroutes

/-- No rule for the decision needs a domain; the tables by domain cover `10.0.0.0/24`. -/
def nestedApp : AppState exampleParseIpNet where
  toAppState := { Routing.AppState.exampleApp with forceSocks5Domains := {} }
  config := nestedTables
  routes := builtRoutes exampleParseIpNet nestedTables
  built := buildRoutes_eq_ok_builtRoutes (by decide +kernel)

/-- A connection from outside `10.0.0.0/24` is proxied without being sniffed. -/
theorem sniff_skip_transparent_nestedApp : ∃ st conn,
    Reachable (step nestedApp) (St.new 0) st ∧ st.conns.lookup 0 = some conn ∧
    conn.sniffResult = some [0x78, 0x2e, 0x62, 0x2e, 0x63, 0x6e] ∧
    conn.point = .connecting none defaultGroup none ∧ conn.decision = some false ∧
    conn.groups = [nestedApp.lookupUpstreamGroup conn.clientAddr.ip conn.origDst.ip
      conn.sniffResult] := by
  obtain ⟨st, hst, hconn⟩ : ∃ st, Reachable (step nestedApp) (St.new 0) st ∧
      st.conns.lookup 0 = some {
        clientAddr := .v4 ⟨10, 0, 1, 7⟩ 1000
        origDst := .v4 ⟨8, 8, 8, 8⟩ 443
        sniffResult := some [0x78, 0x2e, 0x62, 0x2e, 0x63, 0x6e]
        point := .connecting none defaultGroup none
        decision := some false
        groups := [defaultGroup] } :=
    exists_steps_of_run
      (l := [.accept 0 (.v4 ⟨10, 0, 1, 7⟩ 1000) (.v4 ⟨8, 8, 8, 8⟩ 443)
          (some [0x78, 0x2e, 0x62, 0x2e, 0x63, 0x6e]),
        .advance 0 (.run ⟨0, fun _ => 0, 0⟩), .advance 0 (.run ⟨0, fun _ => 0, 0⟩),
        .advance 0 (.run ⟨0, fun _ => 0, 0⟩), .advance 0 (.run ⟨0, fun _ => 0, 0⟩),
        .advance 0 (.getCached 1), .advance 0 (.run ⟨1, fun _ => 1, 1⟩)])
      (fun _ _ _ => trivial) (by decide +kernel)
  refine ⟨st, _, hst, hconn, rfl, rfl, rfl, ?_⟩
  rw [← (sniff_skip_transparent hst hconn).2 defaultGroup List.mem_cons_self]

end XtpRs.Tcp
