import XtpRs.Tcp.Path
import XtpRs.Udp.Effect

/-!
# The ways of all flows

`create_udp_session` settles the way of a UDP session in one go: it asks `should_direct`, unless the
flow is forced through SOCKS5, and `connect_socks5_udp` takes one upstream of the group of the
client, or of `default` if the group offers none. TCP connections settle theirs in many steps and
over a cache that UDP does not use. Both run at the same time and share the route cache.

A session keeps the way that it is created with, so the ways of all flows, at any time, are those
that the policy permits: a client that talks to one server over both protocols is not split. This is
so as long as the proxy mode stays: `SIGUSR1` changes it within a generation, and a connection that
asks `should_direct` before and after a change may mix two modes. The runs here have one mode.

## Main definitions

* `connectSocks5Udp`, `createUdpOutbound`: the choice of the outbound of a session.
* `Flows`, `Flows.step`: the TCP connections and the UDP sessions of a generation.

## Main results

* `KeepsSessions.of_step`: no other step of the runtime touches the way of a session.
* `Flows.Ok.step`: every step keeps all flows within the policy.
* `Flows.follow_policy`: in every run all flows follow the policy, and two of the same client to the
  same server go the same way.
-/

namespace XtpRs.Udp

open Lib Routing Upstream
open Tcp (Path members)

variable {parseIpNet : Str → Option IpNet} {app : Tcp.AppState parseIpNet} {set : UpstreamSet}
  {mode : UInt8}

/-! ### The choice of an outbound -/

/-- What a choice of `UpstreamSet` depends on: the remembered upstreams as other flows have left
them, and its reads. -/
structure Pick where
  current : HashMap Str (Option Str)
  reads : UpstreamSet.PickReads

/-- What the creation of a session depends on: the readings of the clock, and the two choices. -/
structure OutboundReads where
  clock : Readings
  fromGroup : Pick
  fromDefault : Pick

/-- `UpstreamSet::pick_from_group`, as it is called. -/
def Pick.fromGroup (pick : Pick) (set : UpstreamSet) (group : Str) : Option Upstream :=
  (UpstreamSet.pickFromGroup { set with current := pick.current } group pick.reads).1

section

variable (app) (set)

/-- `connect_socks5_udp`, up to the choice of the upstream. -/
def connectSocks5Udp (spec : UdpSessionSpec) (reads : OutboundReads) : Option Upstream :=
  let group :=
    app.lookupUpstreamGroup spec.key.clientAddr.ip spec.key.targetAddr.ip spec.sniffedHost
  (reads.fromGroup.fromGroup set group).or (reads.fromDefault.fromGroup set defaultGroup)

/-- `create_udp_session`, up to the choice of the outbound; none if no upstream is available. -/
def createUdpOutbound (route : RouteState) (spec : UdpSessionSpec) (reads : OutboundReads) :
    Option Path × RouteState :=
  match spec.routing with
  | .auto =>
    let (direct, route) :=
      app.shouldDirect route reads.clock spec.key.targetAddr.ip spec.sniffedHost
    if direct then (some .direct, route)
    else ((connectSocks5Udp app set spec reads).map .proxied, route)
  | .forceSocks5 => ((connectSocks5Udp app set spec reads).map .proxied, route)

end

/-- The outbound of a way. -/
def outboundOf : Path → UdpOutbound
  | .direct => .direct
  | .proxied _ => .socks5

/-- The upstream of a way. -/
def upstreamOf : Path → Option Upstream
  | .direct => none
  | .proxied up => some up

/-- The flows of a generation, with the upstream of the association of each session. -/
structure Flows where
  tcp : Tcp.St
  udp : UdpRuntime
  associated : SessionId → Option Upstream

/-- A step of a TCP connection, a step of the UDP runtime, or the end of the connecting phase of
`create_udp_session`, where the socket is created or the association made if `connects`. The mode is
not changed. -/
inductive FlowAction
  | tcp (a : Tcp.Action)
  | udp (a : Action)
  | connectUdp (creation : ℕ) (reads : OutboundReads) (connects : Bool) (now : ℕ)

namespace Flows

/-- A new generation. -/
def new (mode : UInt8) (timeoutSecs : ℕ) : Flows where
  tcp := .new mode
  udp := .new timeoutSecs
  associated _ := none

/-- What `create_udp_session` has left in the route cache. -/
def setRoute (flows : Flows) (route : RouteState) : Flows :=
  { flows with tcp := { flows.tcp with shared := { flows.tcp.shared with route } } }

/-- The end of the connecting phase of a creation. -/
def connectUdp (app : Tcp.AppState parseIpNet) (set : UpstreamSet) (flows : Flows) (c : ℕ)
    (reads : OutboundReads) (connects : Bool) (now : ℕ) : Option Flows :=
  let (path, route) :=
    createUdpOutbound app set flows.tcp.shared.route (flows.udp.creations c).spec reads
  match path, connects with
  | some path, true =>
    (flows.udp.step (.connect c (.connected (outboundOf path) now))).map fun udp =>
      { flows.setRoute route with
        udp
        associated := Function.update flows.associated flows.udp.numSessions (upstreamOf path) }
  | _, _ =>
    (flows.udp.step (.connect c .failed)).map fun udp => { flows.setRoute route with udp }

/-- One step of the system. -/
def step (app : Tcp.AppState parseIpNet) (set : UpstreamSet) (flows : Flows) :
    FlowAction → Option Flows
  | .tcp a => (Tcp.step app flows.tcp a).map fun tcp => { flows with tcp }
  | .udp (.connect _ (.connected _ _)) => none
  | .udp a => (flows.udp.step a).map fun udp => { flows with udp }
  | .connectUdp c reads connects now => flows.connectUdp app set c reads connects now

/-- What `pick_and_connect` returns in an action comes from `try_connect_socks5_group`. -/
def Selects (set : UpstreamSet) (flows : Flows) : FlowAction → Prop
  | .tcp a => flows.tcp.Selects set a
  | _ => True

/-- The way of a session. -/
def path (flows : Flows) (s : SessionId) : Option Path :=
  match (flows.udp.heap s).outbound with
  | .direct => some .direct
  | .socks5 => (flows.associated s).map .proxied

end Flows

/-! ### Sessions keep their way -/

namespace UdpRuntime

/-- A step creates no session, and keeps the way of each. -/
structure KeepsSessions (rt rt' : UdpRuntime) : Prop where
  num : rt'.numSessions = rt.numSessions
  spec : ∀ s, (rt'.heap s).spec = (rt.heap s).spec
  outbound : ∀ s, (rt'.heap s).outbound = (rt.heap s).outbound

namespace KeepsSessions

variable {rt rt' rt'' : UdpRuntime} {a : Action}

theorem of_heap_eq (hnum : rt'.numSessions = rt.numSessions) (hheap : rt'.heap = rt.heap) :
    KeepsSessions rt rt' :=
  ⟨hnum, fun s => by rw [hheap], fun s => by rw [hheap]⟩

/-- One session is replaced by one with the same specification and outbound. -/
theorem of_update {s : SessionId} {x : UdpSession} (hnum : rt'.numSessions = rt.numSessions)
    (hheap : rt'.heap = Function.update rt.heap s x) (hspec : x.spec = (rt.heap s).spec)
    (hout : x.outbound = (rt.heap s).outbound) : KeepsSessions rt rt' := by
  refine ⟨hnum, fun t => ?_, fun t => ?_⟩
  · rw [hheap]
    rcases eq_or_ne t s with rfl | hts
    · rw [Function.update_self, hspec]
    · rw [Function.update_of_ne hts]
  · rw [hheap]
    rcases eq_or_ne t s with rfl | hts
    · rw [Function.update_self, hout]
    · rw [Function.update_of_ne hts]

theorem trans (h : KeepsSessions rt rt') (h' : KeepsSessions rt' rt'') : KeepsSessions rt rt'' where
  num := h'.num.trans h.num
  spec s := (h'.spec s).trans (h.spec s)
  outbound s := (h'.outbound s).trans (h.outbound s)

/-- Sessions that are at most cancelled. -/
theorem of_cancelled {p : SessionId → Prop} [DecidablePred p]
    (hnum : rt'.numSessions = rt.numSessions)
    (hheap : ∀ s, rt'.heap s =
      if p s then { rt.heap s with cancelled := true } else rt.heap s) : KeepsSessions rt rt' := by
  refine ⟨hnum, fun s => ?_, fun s => ?_⟩
  · rw [hheap]
    split_ifs <;> rfl
  · rw [hheap]
    split_ifs <;> rfl

/-- **The frame.** Only the end of a connecting phase creates a session, and no step changes the
way of one. -/
theorem of_step (ha : ∀ c outbound now, a ≠ .connect c (.connected outbound now))
    (hs : rt.step a = some rt') : KeepsSessions rt rt' := by
  cases Effect.of_step hs with
  | call | check | refuse | reuse | wait | reserve | retry | joined | joinFailed | publishError
  | publishReady | remove | notify | abort | connectFailed | ready | gcSnapshot | gcCheck | gcDone
  | shutdown | reapJoin | shutdownReturn => exact of_heap_eq rfl rfl
  | publishCancelled | abortRecv | recvStart | recvRemove | recvFinish | touch | gcAbort
  | reapAbort => exact of_update rfl rfl rfl rfl
  | recvExit s =>
    have hrecv : KeepsSessions rt (rt.setRecv s .exited) := of_update rfl rfl rfl rfl
    have hcancel : KeepsSessions (rt.setRecv s .exited) ((rt.setRecv s .exited).cancel s) :=
      of_update rfl rfl rfl rfl
    exact hrecv.trans hcancel
  | connected c outbound now => exact absurd rfl (ha c outbound now)
  | gcRemove g now expired =>
    have hr := removeExpired_spec now expired rt
    exact of_cancelled (by rw [setGc, hr.eq]) hr.heap
  | shutdownDrain d =>
    obtain ⟨calls, heq, -⟩ := rt.drain_eq d
    rw [heq]
    exact of_cancelled rfl fun _ => rfl

end KeepsSessions

/-- The end of a connecting phase with an outbound. -/
theorem of_step_connected {rt rt' : UdpRuntime} {c : ℕ} {outbound : UdpOutbound} {now : ℕ}
    (hs : rt.step (.connect c (.connected outbound now)) = some rt') :
    rt'.numSessions = rt.numSessions + 1 ∧
      rt'.heap = Function.update rt.heap rt.numSessions
        ⟨(rt.creations c).spec, outbound, now, false, .starting⟩ := by
  simp only [step, connect] at hs
  split_ifs at hs
  cases hs
  exact ⟨rfl, rfl⟩

end UdpRuntime

/-! ### The outbound of one session -/

/-- The way is permitted to a session with the specification. -/
def UdpSessionSpec.Follows (app : Tcp.AppState parseIpNet) (set : UpstreamSet) (mode : UInt8)
    (spec : UdpSessionSpec) (path : Path) : Prop :=
  match spec.routing with
  | .auto =>
    app.Permits set mode spec.key.clientAddr.ip spec.key.targetAddr.ip spec.sniffedHost path
  | .forceSocks5 => ∃ up, path = .proxied up ∧
    app.Serves set spec.key.clientAddr.ip spec.key.targetAddr.ip spec.sniffedHost up

section Outbound

variable {spec : UdpSessionSpec} {reads : OutboundReads} {up : Upstream} {route : RouteState}

theorem Pick.mem_of_fromGroup {pick : Pick} {group : Str}
    (h : pick.fromGroup set group = some up) : up ∈ members set group := by
  unfold Pick.fromGroup UpstreamSet.pickFromGroup at h
  unfold Tcp.members
  dsimp only at h
  cases hgroup : set.groups.lookup group with
  | none =>
    rw [hgroup] at h
    cases h
  | some items =>
    rw [hgroup] at h
    exact UpstreamSet.mem_of_pickWeighted h

theorem serves_of_connectSocks5Udp (h : connectSocks5Udp app set spec reads = some up) :
    app.Serves set spec.key.clientAddr.ip spec.key.targetAddr.ip spec.sniffedHost up := by
  obtain hgroup | ⟨-, hdefault⟩ := Option.or_eq_some_iff.mp h
  · exact .inl (Pick.mem_of_fromGroup hgroup)
  · exact .inr (Pick.mem_of_fromGroup hdefault)

/-- **The choice.** What is chosen is permitted, and the route cache stays what it was. -/
theorem createUdpOutbound_spec (set : UpstreamSet) (hmode : route.proxyMode = mode)
    (hsound : route.directCache.Sound fun key => app.ipRules key.1) (spec : UdpSessionSpec)
    (reads : OutboundReads) :
    (∀ path, (createUdpOutbound app set route spec reads).1 = some path →
      spec.Follows app set mode path) ∧
    (createUdpOutbound app set route spec reads).2.proxyMode = mode ∧
    (createUdpOutbound app set route spec reads).2.directCache.Sound
      fun key => app.ipRules key.1 := by
  unfold createUdpOutbound UdpSessionSpec.Follows
  cases spec.routing with
  | forceSocks5 =>
    refine ⟨fun path hpath => ?_, hmode, hsound⟩
    obtain ⟨up, hup, rfl⟩ := Option.map_eq_some_iff.mp hpath
    exact ⟨up, rfl, serves_of_connectSocks5Udp hup⟩
  | auto =>
    have hdirect : (app.shouldDirect route reads.clock spec.key.targetAddr.ip
        spec.sniffedHost).1 = app.referenceDecision (.ofUInt8 mode) spec.key.targetAddr.ip
          spec.sniffedHost := by
      rw [Routing.AppState.shouldDirect_fst hsound, hmode]
    have hmode' : (app.shouldDirect route reads.clock spec.key.targetAddr.ip
        spec.sniffedHost).2.proxyMode = mode := Routing.AppState.proxyMode_shouldDirect.trans hmode
    have hsound' : (app.shouldDirect route reads.clock spec.key.targetAddr.ip
        spec.sniffedHost).2.directCache.Sound fun key => app.ipRules key.1 :=
      Routing.AppState.sound_shouldDirect hsound
    cases hd : (app.shouldDirect route reads.clock spec.key.targetAddr.ip spec.sniffedHost).1 with
    | true =>
      rw [hd] at hdirect
      simp only [hd, if_true]
      refine ⟨?_, hmode', hsound'⟩
      rintro _ ⟨⟩
      exact hdirect.symm
    | false =>
      rw [hd] at hdirect
      simp only [hd, Bool.false_eq_true, if_false]
      refine ⟨fun path hpath => ?_, hmode', hsound'⟩
      obtain ⟨up, hup, rfl⟩ := Option.map_eq_some_iff.mp hpath
      exact ⟨hdirect.symm, serves_of_connectSocks5Udp hup⟩

end Outbound

/-! ### All flows -/

namespace Flows

/-- All flows follow the policy. -/
structure Ok (app : Tcp.AppState parseIpNet) (set : UpstreamSet) (mode : UInt8) (flows : Flows) :
    Prop where
  tcp : flows.tcp.PathsOk app set mode
  udp : ∀ s < flows.udp.numSessions, ∃ path, flows.path s = some path ∧
    (flows.udp.heap s).spec.Follows app set mode path

namespace Ok

variable {flows flows' : Flows} {route : RouteState} {a : FlowAction}

theorem new (app : Tcp.AppState parseIpNet) (set : UpstreamSet) (mode : UInt8) (timeoutSecs : ℕ) :
    (Flows.new mode timeoutSecs).Ok app set mode :=
  ⟨.new app set mode, fun s hs => absurd hs (Nat.not_lt_zero s)⟩

theorem setRoute (h : flows.Ok app set mode) (hmode : route.proxyMode = mode)
    (hsound : route.directCache.Sound fun key => app.ipRules key.1) :
    (flows.setRoute route).Ok app set mode :=
  ⟨⟨⟨⟨hmode, hsound⟩, h.tcp.ok.conns⟩, h.tcp.cache, h.tcp.conns⟩, h.udp⟩

/-- A step of the runtime that keeps the sessions. -/
theorem of_keepsSessions (h : flows.Ok app set mode) {udp : UdpRuntime}
    (hkeeps : UdpRuntime.KeepsSessions flows.udp udp) :
    Ok app set mode { flows with udp } where
  tcp := h.tcp
  udp s hs := by
    obtain ⟨path, hpath, hfollows⟩ := h.udp s (hkeeps.num ▸ hs)
    refine ⟨path, ?_, ?_⟩
    · rw [← hpath, Flows.path, Flows.path, hkeeps.outbound]
    · rwa [hkeeps.spec]

/-- A session is created. -/
theorem of_connected (h : flows.Ok app set mode) {udp : UdpRuntime} {c now : ℕ} {path : Path}
    (hpath : (flows.udp.creations c).spec.Follows app set mode path)
    (hs : flows.udp.step (.connect c (.connected (outboundOf path) now)) = some udp) :
    Ok app set mode { flows with
      udp
      associated :=
        Function.update flows.associated flows.udp.numSessions (upstreamOf path) } where
  tcp := h.tcp
  udp s hlt := by
    obtain ⟨hnum, hheap⟩ := UdpRuntime.of_step_connected hs
    simp only [hnum] at hlt
    rcases eq_or_ne s flows.udp.numSessions with rfl | hne
    · refine ⟨path, ?_, ?_⟩
      · simp only [Flows.path, hheap, Function.update_self]
        cases path <;> rfl
      · simpa only [hheap, Function.update_self] using hpath
    · obtain ⟨path', hpath', hfollows⟩ := h.udp s (by omega)
      refine ⟨path', ?_, ?_⟩
      · rw [← hpath']
        simp only [Flows.path, hheap, Function.update_of_ne hne]
      · simpa only [hheap, Function.update_of_ne hne] using hfollows

theorem connectUdp (h : flows.Ok app set mode) {c now : ℕ} {reads : OutboundReads}
    {connects : Bool} (hs : flows.connectUdp app set c reads connects now = some flows') :
    flows'.Ok app set mode := by
  obtain ⟨hfollows, hmode, hsound⟩ := createUdpOutbound_spec set
    h.tcp.ok.shared.proxyMode h.tcp.ok.shared.sound (flows.udp.creations c).spec reads
  have hroute := h.setRoute hmode hsound
  unfold Flows.connectUdp at hs
  dsimp only at hs
  split at hs
  · rename_i path hpath
    obtain ⟨udp, hudp, rfl⟩ := Option.map_eq_some_iff.mp hs
    exact hroute.of_connected (hfollows path hpath) hudp
  · obtain ⟨udp, hudp, rfl⟩ := Option.map_eq_some_iff.mp hs
    exact hroute.of_keepsSessions (.of_step (fun _ _ _ ha => by cases ha) hudp)

/-- **One step of the system.** -/
theorem step (h : flows.Ok app set mode) (hsel : flows.Selects set a)
    (hs : flows.step app set a = some flows') : flows'.Ok app set mode := by
  cases a with
  | tcp a =>
    obtain ⟨tcp, htcp, rfl⟩ := Option.map_eq_some_iff.mp hs
    exact ⟨h.tcp.step hsel htcp, h.udp⟩
  | udp a =>
    unfold Flows.step at hs
    split at hs
    · rename_i ha
      cases ha
    · cases hs
    · rename_i a' hne ha
      cases ha
      obtain ⟨udp, hudp, rfl⟩ := Option.map_eq_some_iff.mp hs
      exact h.of_keepsSessions (.of_step (fun c outbound now ha => hne c outbound now ha) hudp)
    · rename_i ha
      cases ha
  | connectUdp c reads connects now => exact h.connectUdp hs

end Ok

/-- **The policy holds.** In every state that the TCP connections and the UDP sessions of a
generation reach while the proxy mode stays, in any order and over whatever the two caches hold, a
connection whose relay runs
goes the way that the policy permits for the domain that sniffing would find. So does every session
for its sniffed host; one that is forced through SOCKS5 goes over an upstream of its group or of
`default`. A connection and a session to the same server, for one domain however it is written, both
go out directly or are both proxied. -/
theorem follow_policy {flows : Flows} {timeoutSecs : ℕ}
    (h : Steps (step app set) (Selects set) (new mode timeoutSecs) flows) :
    (∀ id conn path, flows.tcp.conns.lookup id = some conn → conn.path = some path →
      app.Permits set mode conn.clientAddr.ip conn.origDst.ip conn.sniffResult path) ∧
    (∀ s < flows.udp.numSessions, ∃ path, flows.path s = some path ∧
      (flows.udp.heap s).spec.Follows app set mode path) ∧
    ∀ id conn s, flows.tcp.conns.lookup id = some conn → conn.path.isSome = true →
      s < flows.udp.numSessions → (flows.udp.heap s).spec.routing = .auto →
      conn.origDst.ip = (flows.udp.heap s).key.targetAddr.ip →
      normalizeDomain conn.sniffResult = normalizeDomain (flows.udp.heap s).spec.sniffedHost →
      (conn.path = some .direct ↔ flows.path s = some .direct) := by
  have hok : flows.Ok app set mode :=
    h.invariant (.new app set mode timeoutSecs) fun _ _ _ hok hsel hs => hok.step hsel hs
  refine ⟨fun id conn path hconn hpath => hok.tcp.permits hconn hpath, hok.udp, ?_⟩
  intro id conn s hconn hsome hs hauto hip hdomain
  obtain ⟨path, hpath⟩ := Option.isSome_iff_exists.mp hsome
  have hpermits := hok.tcp.permits hconn hpath
  obtain ⟨path', hpath', hfollows⟩ := hok.udp s hs
  have hsame : app.referenceDecision (.ofUInt8 mode) conn.origDst.ip conn.sniffResult =
      app.referenceDecision (.ofUInt8 mode) (flows.udp.heap s).key.targetAddr.ip
        (flows.udp.heap s).spec.sniffedHost := by
    rw [← Tcp.AppState.referenceDecision_normalizeDomain, hdomain, hip,
      Tcp.AppState.referenceDecision_normalizeDomain]
  unfold UdpSessionSpec.Follows at hfollows
  rw [hauto] at hfollows
  rw [hpath, hpath']
  unfold UdpSession.key at hsame
  cases path with
  | direct =>
    cases path' with
    | direct => exact Iff.rfl
    | proxied up => exact absurd (hpermits.symm.trans (hsame.trans hfollows.1)) (by decide)
  | proxied up =>
    cases path' with
    | direct => exact absurd (hfollows.symm.trans (hsame.symm.trans hpermits.1)) (by decide)
    | proxied up' => simp

/-- A set of one upstream. -/
def exampleSet : UpstreamSet where
  groups := (∅ : HashMap Str (List Upstream)).insert defaultGroup [Tcp.exampleUpstream]
  allItems := [Tcp.exampleUpstream]
  current := ∅
  tolerance := 0

/-- An attempt that succeeds. -/
def acceptedRound : Tcp.Failover.Round :=
  { Tcp.Failover.refusedRound with connects := true }

/-- What `pick_and_connect` returns in an action is what the loop returns when the first attempt
succeeds. -/
def selectsFirst (flows : Flows) : FlowAction → Bool
  | .tcp (.advance id (.connectGroup result)) =>
    (flows.tcp.conns.lookup id).all fun conn =>
      match conn.point with
      | .connecting _ group exclude =>
        (Tcp.Failover.tryConnectSocks5Group exampleSet 1 (fun _ => acceptedRound) group exclude).map
          Tcp.Failover.Result.upstream = some result
      | _ => true
  | _ => true

theorem selects_of_selectsFirst (flows : Flows) (a : FlowAction)
    (h : flows.selectsFirst a = true) : flows.Selects exampleSet a := by
  unfold selectsFirst at h
  split at h
  · rename_i id result
    intro conn hconn domain group exclude hpoint
    rw [hconn, Option.all_some, hpoint] at h
    obtain ⟨r, hr, hresult⟩ := Option.map_eq_some_iff.mp (of_decide_eq_true h)
    exact ⟨1, _, r, hr, hresult.symm⟩
  · rename_i hne
    cases a with
    | udp a | connectUdp c reads connects now => trivial
    | tcp a =>
      cases a with
      | accept id clientAddr origDst sniffResult => trivial
      | advance id event =>
        intro conn hconn
        cases event with
        | connectGroup result => exact absurd rfl (hne id result)
        | run clock | connect ok | getCached now | cache retain now => trivial

/-- The choices for a session. -/
def exampleReads : OutboundReads where
  clock := ⟨0, fun _ => 0, 0⟩
  fromGroup := ⟨∅, Tcp.Failover.refusedRound.reads⟩
  fromDefault := ⟨∅, Tcp.Failover.refusedRound.reads⟩

/-- A browser opens a TCP connection, and a UDP session for HTTP/3 to the same address. -/
theorem follow_policy_browser : ∃ flows conn,
    Steps (step Tcp.nestedApp exampleSet) (Selects exampleSet) (new 0 60) flows ∧
    flows.tcp.conns.lookup 0 = some conn ∧ conn.path = some (.proxied Tcp.exampleUpstream) ∧
    (∃ path, flows.path 0 = some path ∧
      (flows.udp.heap 0).spec.Follows Tcp.nestedApp exampleSet 0 path) ∧
    (conn.path = some .direct ↔ flows.path 0 = some .direct) := by
  obtain ⟨flows, hflows, hnum, hrouting, htarget, hhost, hconn⟩ : ∃ flows,
      Steps (step Tcp.nestedApp exampleSet) (Selects exampleSet) (new 0 60) flows ∧
      flows.udp.numSessions = 1 ∧ (flows.udp.heap 0).spec.routing = .auto ∧
      (flows.udp.heap 0).key.targetAddr = .v4 ⟨8, 8, 8, 8⟩ 443 ∧
      (flows.udp.heap 0).spec.sniffedHost = none ∧
      flows.tcp.conns.lookup 0 = some {
        clientAddr := .v4 ⟨10, 0, 1, 7⟩ 1000
        origDst := .v4 ⟨8, 8, 8, 8⟩ 443
        sniffResult := none
        point := .relaying (some Tcp.exampleUpstream)
        decision := some false
        groups := [defaultGroup] } :=
    exists_steps_of_guarded_run
      (l := (Tcp.selectAndCache.map fun a => .tcp a.1) ++
        [.udp (.call (.forTproxy (.v4 ⟨10, 0, 1, 7⟩ 2000) (.v4 ⟨8, 8, 8, 8⟩ 443)) false),
          .udp (.advance 0), .udp (.advance 0), .connectUdp 0 exampleReads true 0])
      selects_of_selectsFirst (by decide +kernel)
  obtain ⟨-, hsessions, hsame⟩ := follow_policy hflows
  have hlt : 0 < flows.udp.numSessions := by
    rw [hnum]
    exact Nat.one_pos
  refine ⟨flows, _, hflows, hconn, rfl, hsessions 0 hlt, ?_⟩
  exact hsame 0 _ 0 hconn rfl hlt hrouting (by rw [htarget]) (by rw [hhost])

end Flows

end XtpRs.Udp
