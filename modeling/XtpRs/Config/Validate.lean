import XtpRs.Net.Text
import XtpRs.Upstream.Set

/-!
# Configuration

`Config` of `src/cli.rs` with the fields that validation, the construction of the upstream set, the
start of the background tasks and the relay read, and their defaults. `validate` and
`build_upstream_set` are written check by check, in the order of the source. An error has one
constructor for each message; its arguments are the values that the message prints.

`IpNet::from_str` of the `ipnet` package is the parameter `parseIpNet`.

## Main definitions

* `Config`, `Config.validate`, `Config.buildUpstreamSet`.

## Main results

* `Config.checkGroups_of_validate`, `Config.new_of_buildUpstreamSet`: what the two functions have
  found when they succeed.
-/

namespace XtpRs

open Lib Upstream

/-- `PortForwardProto`. -/
inductive PortForwardProto
  | tcp
  | udp
  | both
  deriving DecidableEq, Repr

/-- `PortForward`. -/
structure PortForward where
  bind : Str
  remote : Str
  network : PortForwardProto
  deriving DecidableEq, Repr

/-- `UpstreamConfig`. -/
structure UpstreamConfig where
  id : Str
  addr : SocketAddr
  groups : Option (List Str) := none
  gain : F64 := .finite 1
  deriving DecidableEq

/-- `Config`. The default of `listen` is `[::]:10810`. -/
structure Config where
  listen : Str := [0x5b, 0x3a, 0x3a, 0x5d, 0x3a, 0x31, 0x30, 0x38, 0x31, 0x30]
  udp : Bool := true
  udpSessionTimeoutSecs : UInt64 := 120
  connectTimeoutSecs : UInt64 := 20
  halfCloseTimeout : UInt64 := 600
  portForward : List PortForward := []
  upstream : List UpstreamConfig
  disableUpstreamScore : Bool := false
  upstreamSwitchTolerance : UInt32 := 0
  healthCheckIntervalSecs : UInt64 := 0
  healthCheckFailThreshold : UInt32 := 2
  quicWeight : UInt32 := 40
  quicStaleSecs : UInt64 := 180
  enableRelativeScoring : Bool := false
  relativeRescoreIntervalSecs : UInt64 := 2
  upstreamScoreDebugIntervalSecs : UInt64 := 0
  pickStatsWindowSecs : UInt32 := 0
  clientRoutes : HashMap Str Str := ∅
  clientDomainRoutes : HashMap Str (HashMap Str Str) := ∅
  clientDstIpRoutes : HashMap Str (HashMap Str Str) := ∅
  forceDirectIps : List Str := []
  forceSocks5Ips : List Str := []

/-- The failures of `validate`, `build_upstream_set` and the functions they call. -/
inductive ConfigError
  | upstreamEmpty
  | upstreamIdEmpty
  | upstreamIdDuplicate (id : Str)
  | upstreamSet (error : UpstreamSet.NewError)
  | quicWeightRange
  | quicStaleSecsRange
  | udpSessionTimeoutZero
  | connectTimeoutZero
  | healthCheckFailThresholdZero
  | pickStatsWindowRange
  | relativeRescoreIntervalZero
  | gain (id : Str) (gain : F64)
  | noDefaultGroup
  | clientRoutesIp (ip : Str)
  | clientRoutesGroup (ip group : Str)
  | clientDomainRoutesIp (ip : Str)
  | clientDomainRoutesGroup (ip domain group : Str)
  | clientDstIpRoutesIp (ip : Str)
  | clientDstIpRoutesDst (dst ip : Str)
  | clientDstIpRoutesGroup (ip dst group : Str)
  | listen (listen : Str)
  | portForwardBind (bind : Str)
  | portForwardConflict (bind : SocketAddr)
  deriving DecidableEq

/-- The group `default`. -/
def defaultGroup : Str := [0x64, 0x65, 0x66, 0x61, 0x75, 0x6c, 0x74]

/-- Every element passes the check, in the order of the list. -/
def checkAll {α : Type} (check : α → Except ConfigError Unit) : List α → Except ConfigError Unit
  | [] => .ok ()
  | a :: rest => do
    check a
    checkAll check rest

/-- A check that fails with `e` unless the condition holds. -/
def ensure (cond : Bool) (e : ConfigError) : Except ConfigError Unit :=
  if cond then .ok () else .error e

/-- `parse_listen_addr`. -/
def parseListenAddr (listen : Str) : Except ConfigError (IpAddr × UInt16) :=
  match parseSocketAddr listen with
  | some addr => .ok (addr.ip, addr.port)
  | none => .error (.listen listen)

namespace UpstreamConfig

/-- The groups of an upstream as `validate` counts them. -/
def countedGroups (up : UpstreamConfig) : List Str :=
  match up.groups with
  | some groups => if groups.isEmpty then [defaultGroup] else groups
  | none => [defaultGroup]

/-- The upstream that `build_upstream_set` makes. -/
def toUpstream (up : UpstreamConfig) : Upstream where
  id := trim up.id
  addr := up.addr
  groups := up.groups.getD [defaultGroup]
  gain := up.gain

end UpstreamConfig

namespace Config

variable (parseIpNet : Str → Option IpNet) (c : Config)

/-- The ids of `build_upstream_set`: trimmed, not empty and distinct. -/
def checkIds : List Str → List UpstreamConfig → Except ConfigError Unit
  | _, [] => .ok ()
  | ids, up :: rest => do
    let trimmed := trim up.id
    ensure (!trimmed.isEmpty) .upstreamIdEmpty
    ensure (!ids.contains trimmed) (.upstreamIdDuplicate trimmed)
    checkIds (trimmed :: ids) rest

/-- `Config::build_upstream_set`. -/
def buildUpstreamSet : Except ConfigError UpstreamSet := do
  ensure (!c.upstream.isEmpty) .upstreamEmpty
  checkIds [] c.upstream
  let items := c.upstream.map UpstreamConfig.toUpstream
  match UpstreamSet.new items c.upstreamSwitchTolerance c.quicWeight c.quicStaleSecs with
  | .ok set => .ok set
  | .error e => .error (.upstreamSet e)

/-- The checks of single numbers in `validate`. -/
def checkLimits : Except ConfigError Unit := do
  ensure (c.quicWeight ≤ 100) .quicWeightRange
  ensure (10 ≤ c.quicStaleSecs && c.quicStaleSecs ≤ 3600) .quicStaleSecsRange
  ensure (c.udpSessionTimeoutSecs != 0) .udpSessionTimeoutZero
  ensure (c.connectTimeoutSecs != 0) .connectTimeoutZero
  ensure (!(0 < c.healthCheckIntervalSecs && c.healthCheckFailThreshold == 0))
    .healthCheckFailThresholdZero
  ensure (c.pickStatsWindowSecs ≤ 604800) .pickStatsWindowRange
  ensure (!(c.enableRelativeScoring && c.relativeRescoreIntervalSecs == 0))
    .relativeRescoreIntervalZero

/-- The check of an upstream's gain in `validate`. -/
def checkGain (up : UpstreamConfig) : Except ConfigError Unit :=
  ensure (up.gain.isFinite && !up.gain.leZero) (.gain up.id up.gain)

/-- `group_count` of `validate`. -/
def groupCount : HashMap Str ℕ :=
  (c.upstream.flatMap UpstreamConfig.countedGroups).foldl
    (fun count group => HashMap.upsert count 0 group (· + 1)) ∅

/-- The group is counted as non-empty. -/
def counts (group : Str) : Bool :=
  (c.groupCount.lookup group).getD 0 != 0

def hasDefault : Bool := (c.groupCount.lookup defaultGroup).isSome

def hasClientRoutes : Bool :=
  c.clientRoutes.size != 0 || c.clientDomainRoutes.size != 0 || c.clientDstIpRoutes.size != 0

/-- `parse_ip_or_cidr(s).is_ok()`. -/
def isIpOrCidr (s : Str) : Bool := (parseIpOrCidr parseIpNet s).isSome

/-- One entry of `client_routes`. -/
def checkClientRoute (e : Str × Str) : Except ConfigError Unit := do
  ensure (isIpOrCidr parseIpNet e.1) (.clientRoutesIp e.1)
  ensure (c.counts e.2) (.clientRoutesGroup e.1 e.2)

/-- One entry of `client_domain_routes`. -/
def checkClientDomainRoute (e : Str × HashMap Str Str) : Except ConfigError Unit := do
  ensure (isIpOrCidr parseIpNet e.1) (.clientDomainRoutesIp e.1)
  checkAll (fun route => ensure (c.counts route.2) (.clientDomainRoutesGroup e.1 route.1 route.2))
    e.2.toList

/-- One entry of `client_dst_ip_routes`. -/
def checkClientDstIpRoute (e : Str × HashMap Str Str) : Except ConfigError Unit := do
  ensure (isIpOrCidr parseIpNet e.1) (.clientDstIpRoutesIp e.1)
  checkAll
    (fun route => do
      ensure (isIpOrCidr parseIpNet route.1) (.clientDstIpRoutesDst route.1 e.1)
      ensure (c.counts route.2) (.clientDstIpRoutesGroup e.1 route.1 route.2))
    e.2.toList

/-- The checks of groups and routes in `validate`. -/
def checkGroups : Except ConfigError Unit := do
  ensure (c.hasDefault || c.hasClientRoutes) .noDefaultGroup
  checkAll (c.checkClientRoute parseIpNet) c.clientRoutes.toList
  checkAll (c.checkClientDomainRoute parseIpNet) c.clientDomainRoutes.toList
  checkAll (c.checkClientDstIpRoute parseIpNet) c.clientDstIpRoutes.toList

/-- The check of a port forward's address in `validate`. -/
def checkPortForward (listen : IpAddr × UInt16) (pf : PortForward) : Except ConfigError Unit :=
  match parseSocketAddr pf.bind with
  | none => .error (.portForwardBind pf.bind)
  | some bind =>
    ensure (!(bind.ip == listen.1 && bind.port == listen.2)) (.portForwardConflict bind)

/-- `Config::validate`. -/
def validate : Except ConfigError Unit := do
  c.checkLimits
  checkAll checkGain c.upstream
  c.checkGroups parseIpNet
  let listen ← parseListenAddr c.listen
  checkAll (checkPortForward listen) c.portForward

end Config

/-! ### Successful checks -/

theorem ensure_eq_ok_iff {cond : Bool} {e : ConfigError} :
    ensure cond e = .ok () ↔ cond = true := by
  cases cond <;> simp [ensure]

/-- A check followed by others succeeds when all of them do. -/
theorem bind_unit_eq_ok_iff {α : Type} {check : Except ConfigError Unit}
    {rest : Except ConfigError α} {a : α} :
    (check >>= fun _ => rest) = .ok a ↔ check = .ok () ∧ rest = .ok a := by
  cases check with
  | error e => simp [bind, Except.bind]
  | ok u => simp [bind, Except.bind]

theorem checkAll_eq_ok_iff {α : Type} {check : α → Except ConfigError Unit} {l : List α} :
    checkAll check l = .ok () ↔ ∀ a ∈ l, check a = .ok () := by
  induction l with
  | nil => simp [checkAll]
  | cons a rest ih => rw [checkAll, bind_unit_eq_ok_iff, ih, List.forall_mem_cons]

namespace Config

variable {parseIpNet : Str → Option IpNet} {c : Config}

theorem checkGroups_of_validate (h : c.validate parseIpNet = .ok ()) :
    c.checkGroups parseIpNet = .ok () := by
  rw [validate, bind_unit_eq_ok_iff, bind_unit_eq_ok_iff, bind_unit_eq_ok_iff] at h
  exact h.2.2.1

/-- `build_upstream_set` succeeds only through `UpstreamSet::new`. -/
theorem new_of_buildUpstreamSet {set : UpstreamSet} (h : c.buildUpstreamSet = .ok set) :
    UpstreamSet.new (c.upstream.map UpstreamConfig.toUpstream) c.upstreamSwitchTolerance
      c.quicWeight c.quicStaleSecs = .ok set := by
  rw [buildUpstreamSet, bind_unit_eq_ok_iff, bind_unit_eq_ok_iff] at h
  replace h := h.2.2
  dsimp only at h
  split at h
  · rename_i set' hset
    cases h
    exact hset
  · cases h

end Config

end XtpRs
