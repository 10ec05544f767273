import XtpRs.Routing.Groups

/-!
# From a valid configuration to a start

`xtp-rs -T` runs `Config::validate` and reports what it finds. A start runs `validate` and then
makes further checks: the ids of the upstreams, the lists of forced addresses and the route tables
in `AppState::build`, and the addresses of the port forwards in `spawn_port_forward_tasks`. Reading
files, binding sockets and loading the databases are left out.

## Main definitions

* `Config.start`: the checks of a start after `validate`.
* `Config.Startable`: what they ask for beyond `validate`.

## Main results

* `Config.start_iff_startable`: a valid configuration starts exactly if it is startable.
-/

namespace XtpRs

open Lib Routing Upstream

/-- The failures of a start after `validate`. -/
inductive StartError
  | emptyIpEntry
  | invalidIp (raw : Str)
  | config (error : ConfigError)
  | routes (error : RouteError)
  | portForwardBind (bind : Str)
  | portForwardRemote (remote : Str)
  deriving DecidableEq

/-- The failure of a step of the start. -/
def orFail {ε α : Type} (fail : ε → StartError) : Except ε α → Except StartError α
  | .ok a => .ok a
  | .error e => .error (fail e)

variable (parseIpNet : Str → Option IpNet)

/-- One entry of `parse_ip_net_list`. -/
def parseIpNetEntry (raw : Str) : Except StartError IpNet :=
  let s := trim raw
  if s.isEmpty then .error .emptyIpEntry
  else
    match parseIpNet s with
    | some net => .ok net
    | none =>
      match parseIpAddr s with
      | some (.v4 ip) => .ok ⟨.v4 ip, 32⟩
      | some (.v6 ip) => .ok ⟨.v6 ip, 128⟩
      | none => .error (.invalidIp raw)

/-- `parse_ip_net_list`. -/
def parseIpNetList (list : List Str) : Except StartError (List IpNet) :=
  list.mapM (parseIpNetEntry parseIpNet)

/-- The addresses of a port forward in `spawn_port_forward_tasks`. -/
def parsePortForward (pf : PortForward) : Except StartError (SocketAddr × SocketAddr) :=
  match parseSocketAddr pf.bind with
  | none => .error (.portForwardBind pf.bind)
  | some bind =>
    match parseSocketAddr pf.remote with
    | none => .error (.portForwardRemote pf.remote)
    | some remote => .ok (bind, remote)

/-- What a start computes from the configuration. -/
structure Started where
  directNets : List IpNet
  socks5Nets : List IpNet
  upstreams : UpstreamSet
  routes : Routes
  portForwards : List (SocketAddr × SocketAddr)

namespace Config

variable (c : Config)

/-- The checks of a start after `validate`, in the order of `AppState::build` and
`spawn_port_forward_tasks`. -/
def start : Except StartError Started := do
  let directNets ← parseIpNetList parseIpNet c.forceDirectIps
  let socks5Nets ← parseIpNetList parseIpNet c.forceSocks5Ips
  let upstreams ← orFail .config c.buildUpstreamSet
  let routes ← orFail .routes (c.buildRoutes parseIpNet)
  let portForwards ← c.portForward.mapM parsePortForward
  return { directNets, socks5Nets, upstreams, routes, portForwards }

/-- The id of an upstream as `build_upstream_set` compares it. -/
def trimmedIds : List Str := c.upstream.map fun up => trim up.id

/-- What a start asks for beyond `validate`. -/
structure Startable : Prop where
  upstream : c.upstream ≠ []
  id_ne_nil : [] ∉ c.trimmedIds
  ids_nodup : c.trimmedIds.Nodup
  forced : ∀ raw ∈ c.forceDirectIps ++ c.forceSocks5Ips,
    trim raw ≠ [] ∧ isIpOrCidr parseIpNet (trim raw) = true
  patterns : ∀ e ∈ c.clientDomainRoutes.toList, ∀ route ∈ e.2.toList,
    (Pattern.ofKey route.1).text ≠ []
  remotes : ∀ pf ∈ c.portForward, (parseSocketAddr pf.remote).isSome = true

end Config

/-! ### Each check -/

variable {parseIpNet}

theorem exists_orFail_iff {ε α : Type} {fail : ε → StartError} {x : Except ε α} :
    (∃ a, orFail fail x = .ok a) ↔ ∃ a, x = .ok a := by
  cases x with
  | ok a => simp [orFail]
  | error e => simp [orFail]

theorem exists_parseIpNetEntry_iff {raw : Str} :
    (∃ net, parseIpNetEntry parseIpNet raw = .ok net) ↔
      trim raw ≠ [] ∧ Config.isIpOrCidr parseIpNet (trim raw) = true := by
  rw [parseIpNetEntry, Config.isIpOrCidr, parseIpOrCidr]
  by_cases hempty : trim raw = []
  · simp [hempty]
  · cases parseIpNet (trim raw) with
    | some net => simp [hempty]
    | none =>
      cases parseIpAddr (trim raw) with
      | none => simp [hempty]
      | some ip => cases ip <;> simp [hempty]

theorem exists_parsePortForward_iff {pf : PortForward} :
    (∃ addrs, parsePortForward pf = .ok addrs) ↔
      (parseSocketAddr pf.bind).isSome = true ∧ (parseSocketAddr pf.remote).isSome = true := by
  rw [parsePortForward]
  cases parseSocketAddr pf.bind with
  | none => simp
  | some bind =>
    cases parseSocketAddr pf.remote with
    | none => simp
    | some remote => simp

namespace Config

variable {c : Config}

theorem checkIds_eq_ok_iff {ids : List Str} {ups : List UpstreamConfig} :
    checkIds ids ups = .ok () ↔ ([] ∉ ups.map fun up => trim up.id) ∧
      (ups.map fun up => trim up.id).Nodup ∧ ∀ id ∈ ids, id ∉ ups.map fun up => trim up.id := by
  induction ups generalizing ids with
  | nil => simp [checkIds]
  | cons up rest ih =>
    rw [checkIds, bind_unit_eq_ok_iff, bind_unit_eq_ok_iff, ensure_eq_ok_iff, ensure_eq_ok_iff, ih]
    simp only [List.map_cons, List.mem_cons, List.nodup_cons, not_or, forall_eq_or_imp,
      Bool.not_eq_true', List.isEmpty_eq_false_iff, List.contains_eq_mem, decide_eq_false_iff_not]
    constructor
    · rintro ⟨hne, hnot, hnil, hnodup, hup, hids⟩
      exact ⟨⟨Ne.symm hne, hnil⟩, ⟨hup, hnodup⟩, fun id hid =>
        ⟨fun heq => hnot (heq ▸ hid), hids id hid⟩⟩
    · rintro ⟨⟨hne, hnil⟩, ⟨hup, hnodup⟩, hids⟩
      exact ⟨Ne.symm hne, fun hmem => (hids _ hmem).1 rfl, hnil, hnodup, hup,
        fun id hid => (hids id hid).2⟩

theorem exists_buildUpstreamSet_iff : (∃ set, c.buildUpstreamSet = .ok set) ↔
    c.upstream ≠ [] ∧ [] ∉ c.trimmedIds ∧ c.trimmedIds.Nodup := by
  have hnew : c.upstream ≠ [] → ∃ set, UpstreamSet.new (c.upstream.map UpstreamConfig.toUpstream)
      c.upstreamSwitchTolerance c.quicWeight c.quicStaleSecs = .ok set := by
    intro hne
    rw [UpstreamSet.new, if_neg (by simpa using hne)]
    exact ⟨_, rfl⟩
  simp only [buildUpstreamSet, bind_unit_eq_ok_iff, ensure_eq_ok_iff, checkIds_eq_ok_iff,
    exists_and_left, Bool.not_eq_true', List.isEmpty_eq_false_iff, List.not_mem_nil,
    IsEmpty.forall_iff, implies_true, and_true]
  constructor
  · rintro ⟨hne, hids, -⟩
    exact ⟨hne, hids⟩
  · rintro ⟨hne, hids⟩
    obtain ⟨set, hset⟩ := hnew hne
    exact ⟨hne, hids, set, by rw [hset]⟩

/-- What `validate` has found about the keys of the routes and the port forwards. -/
structure ValidKeys (parseIpNet : Str → Option IpNet) (c : Config) : Prop where
  client : ∀ e ∈ c.clientRoutes.toList, isIpOrCidr parseIpNet e.1 = true
  domain : ∀ e ∈ c.clientDomainRoutes.toList, isIpOrCidr parseIpNet e.1 = true
  dst : ∀ e ∈ c.clientDstIpRoutes.toList, isIpOrCidr parseIpNet e.1 = true
  dst_inner : ∀ e ∈ c.clientDstIpRoutes.toList, ∀ route ∈ e.2.toList,
    isIpOrCidr parseIpNet route.1 = true
  bind : ∀ pf ∈ c.portForward, (parseSocketAddr pf.bind).isSome = true

theorem validKeys_of_validate (h : c.validate parseIpNet = .ok ()) : c.ValidKeys parseIpNet := by
  have hgroups := checkGroups_of_validate h
  simp only [checkGroups, bind_unit_eq_ok_iff, checkAll_eq_ok_iff, checkClientRoute,
    checkClientDomainRoute, checkClientDstIpRoute, ensure_eq_ok_iff] at hgroups
  obtain ⟨-, hclient, hdomain, hdst⟩ := hgroups
  rw [validate, bind_unit_eq_ok_iff, bind_unit_eq_ok_iff, bind_unit_eq_ok_iff, bind_eq_ok_iff] at h
  obtain ⟨-, -, -, listen, -, hforwards⟩ := h
  rw [checkAll_eq_ok_iff] at hforwards
  refine ⟨fun e he => (hclient e he).1, fun e he => (hdomain e he).1, fun e he => (hdst e he).1,
    fun e he route hroute => ((hdst e he).2 route hroute).1, fun pf hpf => ?_⟩
  have hbind := hforwards pf hpf
  rw [checkPortForward] at hbind
  cases hparse : parseSocketAddr pf.bind with
  | none =>
    rw [hparse] at hbind
    cases hbind
  | some bind => rfl

theorem exists_buildIpRoutes {invalid : Str → RouteError} {map : HashMap Str Str}
    (h : ∀ e ∈ map.toList, isIpOrCidr parseIpNet e.1 = true) :
    ∃ routes, buildIpRoutes parseIpNet invalid map = .ok routes := by
  refine exists_buildCidrRoutes_iff.mpr fun key group hlookup => ⟨?_, group, rfl⟩
  exact Option.isSome_iff_exists.mp (h (key, group) ((HashMap.mem_toList map).mpr hlookup))

theorem exists_buildDstRoutes (h : c.ValidKeys parseIpNet) :
    ∃ routes, buildCidrRoutes parseIpNet .clientDstIpRoutesIp
      (fun ip dstMap => buildIpRoutes parseIpNet (.clientDstIpRoutesDst · ip) dstMap)
      c.clientDstIpRoutes = .ok routes := by
  refine exists_buildCidrRoutes_iff.mpr fun key map hlookup => ?_
  have hmem := (HashMap.mem_toList c.clientDstIpRoutes).mpr hlookup
  exact ⟨Option.isSome_iff_exists.mp (h.dst _ hmem), exists_buildIpRoutes (h.dst_inner _ hmem)⟩

/-- The tables of a valid configuration are built exactly if no pattern is empty. -/
theorem exists_buildRoutes_iff (h : c.ValidKeys parseIpNet) :
    (∃ routes, c.buildRoutes parseIpNet = .ok routes) ↔
      ∀ e ∈ c.clientDomainRoutes.toList, ∀ route ∈ e.2.toList,
        (Pattern.ofKey route.1).text ≠ [] := by
  have hdomain : (∃ routes, buildCidrRoutes parseIpNet .clientDomainRoutesIp buildDomainRouteTable
      c.clientDomainRoutes = .ok routes) ↔ ∀ e ∈ c.clientDomainRoutes.toList,
        ∀ route ∈ e.2.toList, (Pattern.ofKey route.1).text ≠ [] := by
    rw [exists_buildCidrRoutes_iff, Prod.forall]
    refine forall₂_congr fun key map => ?_
    rw [HashMap.mem_toList]
    refine imp_congr_right fun hlookup => ?_
    have hkey := Option.isSome_iff_exists.mp
      (h.domain (key, map) ((HashMap.mem_toList _).mpr hlookup))
    simp only [hkey, true_and, buildDomainRouteTable_eq_ok_iff, exists_eq_right, Prod.forall,
      HashMap.mem_toList]
  rw [← hdomain]
  simp only [buildRoutes_eq_ok_iff]
  constructor
  · rintro ⟨routes, -, hroutes, -⟩
    exact ⟨_, hroutes⟩
  · rintro ⟨clientDomainRoutes, hdomainRoutes⟩
    obtain ⟨clientRoutes, hclientRoutes⟩ := exists_buildIpRoutes h.client
    obtain ⟨clientDstIpRoutes, hdstRoutes⟩ := exists_buildDstRoutes h
    exact ⟨⟨clientRoutes, clientDomainRoutes, clientDstIpRoutes⟩, hclientRoutes, hdomainRoutes,
      hdstRoutes⟩

theorem exists_start_iff : (∃ started, c.start parseIpNet = .ok started) ↔
    (∃ nets, parseIpNetList parseIpNet c.forceDirectIps = .ok nets) ∧
    (∃ nets, parseIpNetList parseIpNet c.forceSocks5Ips = .ok nets) ∧
    (∃ set, c.buildUpstreamSet = .ok set) ∧ (∃ routes, c.buildRoutes parseIpNet = .ok routes) ∧
    ∃ addrs, c.portForward.mapM parsePortForward = .ok addrs := by
  simp only [start, bind_eq_ok_iff]
  constructor
  · rintro ⟨started, direct, hdirect, socks5, hsocks5, set, hset, routes, hroutes, addrs, haddrs, -⟩
    exact ⟨⟨direct, hdirect⟩, ⟨socks5, hsocks5⟩, exists_orFail_iff.mp ⟨set, hset⟩,
      exists_orFail_iff.mp ⟨routes, hroutes⟩, addrs, haddrs⟩
  · rintro ⟨⟨direct, hdirect⟩, ⟨socks5, hsocks5⟩, hset, hroutes, addrs, haddrs⟩
    obtain ⟨set, hset⟩ := exists_orFail_iff.mpr hset
    obtain ⟨routes, hroutes⟩ := exists_orFail_iff.mpr hroutes
    exact ⟨_, direct, hdirect, socks5, hsocks5, set, hset, routes, hroutes, addrs, haddrs, rfl⟩

/-- **A start of a valid configuration.** It succeeds exactly if the configuration is startable. -/
theorem start_iff_startable (h : c.validate parseIpNet = .ok ()) :
    (∃ started, c.start parseIpNet = .ok started) ↔ c.Startable parseIpNet := by
  have hkeys := validKeys_of_validate h
  have hforced : ∀ list, (∃ nets, parseIpNetList parseIpNet list = .ok nets) ↔ ∀ raw ∈ list,
      trim raw ≠ [] ∧ isIpOrCidr parseIpNet (trim raw) = true := fun list => by
    rw [parseIpNetList, exists_mapM_eq_ok_iff]
    exact forall₂_congr fun raw _ => exists_parseIpNetEntry_iff
  have hforwards : (∃ addrs, c.portForward.mapM parsePortForward = .ok addrs) ↔
      ∀ pf ∈ c.portForward, (parseSocketAddr pf.remote).isSome = true := by
    rw [exists_mapM_eq_ok_iff]
    refine forall₂_congr fun pf hpf => ?_
    rw [exists_parsePortForward_iff]
    exact and_iff_right (hkeys.bind pf hpf)
  rw [exists_start_iff, hforced, hforced, exists_buildUpstreamSet_iff, exists_buildRoutes_iff hkeys,
    hforwards]
  constructor
  · rintro ⟨hdirect, hsocks5, ⟨hne, hnil, hnodup⟩, hpatterns, hremotes⟩
    refine ⟨hne, hnil, hnodup, fun raw hraw => ?_, hpatterns, hremotes⟩
    exact (List.mem_append.mp hraw).elim (hdirect raw) (hsocks5 raw)
  · rintro ⟨hne, hnil, hnodup, hforced, hpatterns, hremotes⟩
    exact ⟨fun raw hraw => hforced raw (List.mem_append_left _ hraw),
      fun raw hraw => hforced raw (List.mem_append_right _ hraw), ⟨hne, hnil, hnodup⟩, hpatterns,
      hremotes⟩

end Config

/-! ### Two upstreams with one id -/

/-- Upstreams with the given ids in the group `default`. -/
def upstreamsNamed (ids : List Str) : Config where
  upstream := ids.map fun id => { id, addr := .v4 ⟨127, 0, 0, 1⟩ 1080 }

/-- Two upstreams with different ids start. -/
theorem start_upstreamsNamed_ab :
    (upstreamsNamed [[0x61], [0x62]]).validate exampleParseIpNet = .ok () ∧
    ∃ started, (upstreamsNamed [[0x61], [0x62]]).start exampleParseIpNet = .ok started := by
  have hvalid : (upstreamsNamed [[0x61], [0x62]]).validate exampleParseIpNet = .ok () := by
    decide +kernel
  refine ⟨hvalid, (Config.start_iff_startable hvalid).mpr ⟨?_, ?_, ?_, ?_, ?_, ?_⟩⟩
  · exact List.cons_ne_nil _ _
  · decide +kernel
  · decide +kernel
  · exact fun raw hraw => absurd hraw List.not_mem_nil
  · exact fun e he => absurd he List.not_mem_nil
  · exact fun pf hpf => absurd hpf List.not_mem_nil

/-- Two upstreams with the same id pass `validate` and do not start. -/
theorem not_start_upstreamsNamed_aa :
    (upstreamsNamed [[0x61], [0x61]]).validate exampleParseIpNet = .ok () ∧
    ¬∃ started, (upstreamsNamed [[0x61], [0x61]]).start exampleParseIpNet = .ok started := by
  refine ⟨by decide +kernel, fun ⟨started, hstarted⟩ => ?_⟩
  have hfail : ((upstreamsNamed [[0x61], [0x61]]).start exampleParseIpNet).toOption.isSome =
      false := by
    decide +kernel
  rw [hstarted] at hfail
  cases hfail

end XtpRs
