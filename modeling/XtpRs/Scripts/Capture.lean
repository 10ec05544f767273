import XtpRs.Lib.RuleChains
import XtpRs.Routing.Cidr

/-!
# The capture of traffic

`setup-xtp-rs.sh` of `contrib/usr/libexec/xtp-rs` loads an `nft` table with two chains. `prerouting`
sees every packet that arrives and hands the ones for the proxy to its listener (`tproxy`); `output`
sees the packets of the machine itself and only marks them, so that they are routed to `lo` and
arrive again. The rules are written by the script from its settings, some of them only when a switch
is on and the file with the networks is there.

A rule may set the mark and then not hold, since `tproxy ip` does not hold for an IPv6 packet, nor
for any packet when there is no transparent socket for it; the mark stays set. `counter` has no
effect on a packet and is left out. Lists of networks stand for the `nft` sets.

## Main definitions

* `Setup`, `Packet`: the settings and what the rules look at.
* `Setup.prerouting`, `Setup.output`: the chains.
* `Setup.exempt`, `Setup.banned`, `Setup.selected`: what the capture is for.

## Main results

* `evalBase_prerouting`, `evalBase_output`: the chains refine the policy.
-/

namespace XtpRs.Scripts

open Lib

/-- `meta l4proto`. -/
inductive L4Proto
  | tcp
  | udp
  | other
  deriving DecidableEq, Repr

/-- The addresses of a packet. -/
inductive IpHeader
  | v4 (saddr daddr : Ipv4Addr)
  | v6 (saddr daddr : Ipv6Addr)
  deriving DecidableEq, Repr

/-- What identifies the flow of a packet. -/
structure Flow where
  header : IpHeader
  l4proto : L4Proto
  sport : UInt16
  dport : UInt16
  deriving DecidableEq, Repr

/-- A packet in a hook; `assigned` is the address of the socket that `tproxy` has given it. -/
structure Packet where
  flow : Flow
  iifname : String
  mark : UInt32 := 0
  skuid : Option ℕ := none
  assigned : Option SocketAddr := none
  deriving DecidableEq, Repr

/-- What `socket` sees of the socket of a packet. -/
structure SocketInfo where
  transparent : Bool
  wildcard : Bool
  deriving DecidableEq, Repr

/-- The sockets of the machine: the one that belongs to a flow, and whether `tproxy` finds a
transparent one, of an open connection or a listener. -/
structure Sockets where
  lookup : Flow → Option SocketInfo
  tproxy : Flow → Bool

/-- The final verdicts. -/
inductive FilterVerdict
  | accept
  | drop
  | reject
  deriving DecidableEq, Repr

/-- The chains that are jumped to. -/
inductive ChainName
  | lanUdpPorts

abbrev NftRule := Rule Packet FilterVerdict ChainName

/-- `XTP_FWMARK`. -/
def fwmark : UInt32 := 1

/-- `XTP_BYPASS_MARK`. -/
def bypassMark : UInt32 := 2

/-- `XTP_TPROXY_PORT`. -/
def tproxyPort : UInt16 := 10810

/-- The action of the rules against foreign QUIC. -/
inductive BanAction
  | reject
  | drop
  deriving DecidableEq, Repr

def BanAction.verdict : BanAction → FilterVerdict
  | reject => .reject
  | drop => .drop

/-- The settings of the script, read and checked. The lists of Chinese networks are there when their
files are valid. -/
structure Setup where
  ingressIfaces : List String
  localIp : List Ipv4Addr
  extReserved : List IpNet := []
  bypassSaddr : List IpNet := []
  chinaIps : Option (List IpNet) := none
  chinaIp6s : Option (List IpNet) := none
  bypassChnroute : Bool := false
  banForeignQuic : Option BanAction := none
  tcpPorts : List UInt16 := [80, 443]
  udpPorts : List UInt16 := [53, 443]
  bypassSkuid : Option ℕ := none
  deriving DecidableEq

/-! ### Tests and actions -/

def v4Net (a b c d : UInt8) (prefixLen : ℕ) : IpNet := ⟨.v4 ⟨a, b, c, d⟩, prefixLen⟩

/-- `192.168.0.0/16`. -/
def lanNet : IpNet := v4Net 192 168 0 0 16

/-- `fd00::/8`. -/
def lanNet6 : IpNet := ⟨.v6 (.new 0xfd00 0 0 0 0 0 0 0), 8⟩

/-- The address is in one of the networks. -/
def anyContains (nets : List IpNet) (ip : IpAddr) : Bool := nets.any (·.contains ip)

namespace Packet

/-- The transport protocol is `proto`. -/
def isProto (proto : L4Proto) (p : Packet) : Bool := p.flow.l4proto == proto

def dportIn (ports : List UInt16) (p : Packet) : Bool := ports.contains p.flow.dport

/-- `udp dport @ports`. -/
def udpDportIn (ports : List UInt16) (p : Packet) : Bool := p.isProto .udp && p.dportIn ports

/-- `ip saddr`: an IPv4 packet with a source in the networks. -/
def ipSaddrIn (nets : List IpNet) (p : Packet) : Bool :=
  match p.flow.header with
  | .v4 saddr _ => anyContains nets (.v4 saddr)
  | .v6 _ _ => false

/-- `ip daddr @local_ip`. -/
def ipDaddrInSet (addrs : List Ipv4Addr) (p : Packet) : Bool :=
  match p.flow.header with
  | .v4 _ daddr => addrs.contains daddr
  | .v6 _ _ => false

/-- `ip daddr`. -/
def ipDaddrIn (nets : List IpNet) (p : Packet) : Bool :=
  match p.flow.header with
  | .v4 _ daddr => anyContains nets (.v4 daddr)
  | .v6 _ _ => false

/-- `ip daddr !=`: an IPv4 packet all the same. -/
def ipDaddrNotIn (nets : List IpNet) (p : Packet) : Bool :=
  match p.flow.header with
  | .v4 _ daddr => !anyContains nets (.v4 daddr)
  | .v6 _ _ => false

/-- `ip6 daddr`. -/
def ip6DaddrIn (nets : List IpNet) (p : Packet) : Bool :=
  match p.flow.header with
  | .v4 _ _ => false
  | .v6 _ daddr => anyContains nets (.v6 daddr)

/-- `ip6 daddr !=`. -/
def ip6DaddrNotIn (nets : List IpNet) (p : Packet) : Bool :=
  match p.flow.header with
  | .v4 _ _ => false
  | .v6 _ daddr => !anyContains nets (.v6 daddr)

/-- `meta mark set ${XTP_FWMARK}`. -/
def setMark (p : Packet) : Packet := { p with mark := fwmark }

/-- `tproxy ip to 127.0.0.1:${XTP_TPROXY_PORT}`. -/
def tproxyIp (sockets : Sockets) (p : Packet) : Option Packet :=
  match p.flow.header with
  | .v4 _ _ =>
    if sockets.tproxy p.flow then
      some { p with assigned := some (.v4 ⟨127, 0, 0, 1⟩ tproxyPort) }
    else none
  | .v6 _ _ => none

/-- `tproxy ip6 to [::1]:${XTP_TPROXY_PORT}`. -/
def tproxyIp6 (sockets : Sockets) (p : Packet) : Option Packet :=
  match p.flow.header with
  | .v4 _ _ => none
  | .v6 _ _ =>
    if sockets.tproxy p.flow then
      some { p with assigned := some (.v6 (.new 0 0 0 0 0 0 0 1) tproxyPort 0 0) }
    else none

/-- `socket transparent 1`. -/
def socketTransparent (sockets : Sockets) (p : Packet) : Bool :=
  (sockets.lookup p.flow).any (·.transparent)

/-- `socket wildcard 0`. -/
def socketNotWildcard (sockets : Sockets) (p : Packet) : Bool :=
  (sockets.lookup p.flow).any (!·.wildcard)

end Packet

open Packet

namespace Setup

variable (s : Setup) (sockets : Sockets)

/-! ### The rules -/

/-- `RESERVED_IP_ELEMENTS`. -/
def reservedIp : List IpNet :=
  [v4Net 10 0 0 0 8, v4Net 100 64 0 0 10, v4Net 127 0 0 0 8, v4Net 169 254 0 0 16,
    v4Net 172 16 0 0 12, v4Net 192 0 0 0 24, v4Net 224 0 0 0 4, v4Net 240 0 0 0 4] ++ s.extReserved

/-- `reserved_ip6`. -/
def reservedIp6 : List IpNet :=
  [⟨.v6 (.new 0 0 0 0 0 0 0 1), 128⟩, ⟨.v6 (.new 0xfe80 0 0 0 0 0 0 0), 10⟩,
    ⟨.v6 (.new 0xfc00 0 0 0 0 0 0 0), 7⟩]

/-- `BYPASS_SADDR_RULES`. -/
def bypassSaddrRules : List NftRule :=
  (s.bypassSaddr.map fun net => [ipSaddrIn [net]]).map (guardRule · .ret)

/-- `CHNROUTE_RETURN`. -/
def chnrouteReturn : List NftRule :=
  match s.chinaIps with
  | some nets => if s.bypassChnroute then [guardRule [ipDaddrIn nets] .ret] else []
  | none => []

/-- `CHNROUTE6_RETURN`. -/
def chnroute6Return : List NftRule :=
  match s.chinaIp6s with
  | some nets => if s.bypassChnroute then [guardRule [ip6DaddrIn nets] .ret] else []
  | none => []

/-- `BAN_QUIC_V4_RULE`. -/
def banQuicV4Rule : List NftRule :=
  match s.chinaIps, s.banForeignQuic with
  | some nets, some action =>
    [guardRule [ipDaddrNotIn nets, ipDaddrNotIn s.reservedIp, ipDaddrNotIn [lanNet],
      udpDportIn [443]] (.final action.verdict)]
  | _, _ => []

/-- `BAN_QUIC_V6_RULE`. -/
def banQuicV6Rule : List NftRule :=
  match s.chinaIp6s, s.banForeignQuic with
  | some nets, some action =>
    [guardRule [ip6DaddrNotIn nets, ip6DaddrNotIn reservedIp6, udpDportIn [443]]
      (.final action.verdict)]
  | _, _ => []

/-- The rules that both chains have between those on the origin of a packet and those on its port.
-/
def commonRules : List NftRule :=
  s.bypassSaddrRules ++
  [guardRule [ipDaddrInSet s.localIp] .ret,
    guardRule [ipDaddrIn s.reservedIp] .ret] ++
  s.chnrouteReturn ++
  [guardRule [isProto .tcp, ipDaddrIn [lanNet]] .ret,
    guardRule [ipDaddrIn [lanNet], isProto .udp] (.jump .lanUdpPorts),
    guardRule [ip6DaddrIn reservedIp6] .ret] ++
  s.chnroute6Return ++
  [guardRule [isProto .tcp, ip6DaddrIn [lanNet6]] .ret,
    guardRule [ip6DaddrIn [lanNet6], isProto .udp] (.jump .lanUdpPorts)] ++
  s.banQuicV4Rule ++ s.banQuicV6Rule

/-- The rules that hand the packets of a protocol with one of the ports to the proxy. -/
def tproxyRules (proto : L4Proto) (ports : List UInt16) : List NftRule :=
  [[.test (isProto proto), .test (dportIn ports), .act fun p => some p.setMark,
      .act (tproxyIp sockets), .verdict (.final .accept)],
    [.test (isProto proto), .test (dportIn ports), .act fun p => some p.setMark,
      .act (tproxyIp6 sockets), .verdict (.final .accept)]]

/-- The rule that keeps the packets of open connections with the proxy. -/
def divertRule : NftRule :=
  changeRule [isProto .tcp, socketTransparent sockets, socketNotWildcard sockets] setMark .accept

/-- `chain prerouting`. -/
def prerouting : List NftRule :=
  [guardRule [fun p => p.mark == bypassMark] .ret,
    guardRule [fun p => !(s.ingressIfaces ++ ["lo"]).contains p.iifname] .ret,
    divertRule sockets] ++
  s.commonRules ++ tproxyRules sockets .tcp s.tcpPorts ++ tproxyRules sockets .udp s.udpPorts

/-- `SKUID_BYPASS_RULE`. -/
def skuidBypassRule : List NftRule :=
  match s.bypassSkuid with
  | some uid => [guardRule [fun p => p.skuid == some uid] .ret]
  | none => []

/-- The rule that marks the packets of a protocol with one of the ports. -/
def markRule (proto : L4Proto) (ports : List UInt16) : NftRule :=
  changeRule [isProto proto, dportIn ports] setMark .accept

/-- `chain output`. -/
def output : List NftRule :=
  [guardRule [fun p => p.mark == bypassMark] .ret] ++ s.skuidBypassRule ++ s.commonRules ++
  [markRule .tcp s.tcpPorts, markRule .udp s.udpPorts]

/-- `chain lan_udp_ports`. -/
def chains : ChainName → List NftRule
  | .lanUdpPorts => [guardRule [udpDportIn s.udpPorts] .ret, guardRule [] (.final .accept)]

/-- The evaluation of a chain that is jumped to; `nft` allows sixteen jumps. -/
def call (chain : ChainName) (p : Packet) : Packet × Option FilterVerdict :=
  evalChain s.chains 15 (s.chains chain) p

/-- A packet in the hook `prerouting`. -/
def runPrerouting (p : Packet) : Packet × FilterVerdict :=
  evalBase s.call .accept (s.prerouting sockets) p

/-- A packet in the hook `output`. -/
def runOutput (p : Packet) : Packet × FilterVerdict :=
  evalBase s.call .accept s.output p

/-! ### What the capture is for -/

/-- The flows that are left alone: those of a bypassed source, to the machine itself, to a reserved
address or, if that is switched on, a Chinese one, and in the home network all but the UDP ports of
the proxy. -/
def exempt (f : Flow) : Bool :=
  match f.header with
  | .v4 saddr daddr =>
    anyContains s.bypassSaddr (.v4 saddr) || s.localIp.contains daddr ||
      anyContains s.reservedIp (.v4 daddr) ||
      (s.bypassChnroute && s.chinaIps.any (anyContains · (.v4 daddr))) ||
      (lanNet.contains (.v4 daddr) &&
        (f.l4proto == .tcp || f.l4proto == .udp && !s.udpPorts.contains f.dport))
  | .v6 _ daddr =>
    anyContains reservedIp6 (.v6 daddr) ||
      (s.bypassChnroute && s.chinaIp6s.any (anyContains · (.v6 daddr)))

/-- The flows to UDP port 443 of an address that is in no Chinese network and not at home. -/
def foreignQuic (f : Flow) : Bool :=
  f.l4proto == .udp && f.dport == 443 &&
    match f.header with
    | .v4 _ daddr => s.chinaIps.any (!anyContains · (.v4 daddr)) && !lanNet.contains (.v4 daddr)
    | .v6 _ daddr => s.chinaIp6s.any (!anyContains · (.v6 daddr))

/-- What is done with a flow that is not allowed. -/
def banned (f : Flow) : Option BanAction :=
  if s.foreignQuic f then s.banForeignQuic else none

/-- The flows to the ports of the proxy. -/
def selected (f : Flow) : Bool :=
  match f.l4proto with
  | .tcp => s.tcpPorts.contains f.dport
  | .udp => s.udpPorts.contains f.dport
  | .other => false

/-- What becomes of a packet, where `take` says what is done with those for the proxy. -/
def policy (take : Packet → Packet) (p : Packet) : Packet × FilterVerdict :=
  if s.exempt p.flow then (p, .accept)
  else
    match s.banned p.flow with
    | some action => (p, action.verdict)
    | none => if s.selected p.flow then (take p, .accept) else (p, .accept)

/-! ### The rules of both chains -/

variable (rest : List NftRule) (p : Packet)

theorem call_lanUdpPorts :
    s.call .lanUdpPorts p =
      (p, if !udpDportIn s.udpPorts p then some .accept else none) := by
  obtain ⟨call, hcall⟩ := exists_evalChain_eq s.chains 15 (s.chains .lanUdpPorts)
  rw [Setup.call, hcall]
  simp only [chains, evalRules, evalRule_guardRule, List.all_cons, List.all_nil, Bool.and_true]
  cases udpDportIn s.udpPorts p <;> rfl

theorem evalBase_bypassSaddrRules :
    evalBase s.call .accept (s.bypassSaddrRules ++ rest) p =
      if ipSaddrIn s.bypassSaddr p then (p, .accept) else evalBase s.call .accept rest p := by
  have hany : (s.bypassSaddr.map fun net => [ipSaddrIn [net]]).any (fun tests => tests.all (· p)) =
      ipSaddrIn s.bypassSaddr p := by
    unfold ipSaddrIn
    cases hheader : p.flow.header with
    | v4 saddr daddr => simp [anyContains, List.any_map, Function.comp_def, hheader]
    | v6 saddr daddr => simp [List.any_map, Function.comp_def, hheader]
  rw [bypassSaddrRules, evalBase_guardRules, hany]

theorem evalBase_lanUdpPorts (tests : List (Packet → Bool)) :
    evalBase s.call .accept (guardRule tests (.jump .lanUdpPorts) :: rest) p =
      if tests.all (· p) && !udpDportIn s.udpPorts p then (p, .accept)
      else evalBase s.call .accept rest p :=
  evalBase_guardRule_jump _ _ _ _ _ (s.call_lanUdpPorts p)

theorem evalBase_chnrouteReturn :
    evalBase s.call .accept (s.chnrouteReturn ++ rest) p =
      if s.bypassChnroute && s.chinaIps.any (ipDaddrIn · p) then (p, .accept)
      else evalBase s.call .accept rest p := by
  unfold chnrouteReturn
  cases s.chinaIps with
  | none => simp
  | some nets =>
    cases s.bypassChnroute with
    | false => simp
    | true => simp [evalBase_guardRule_ret]

theorem evalBase_chnroute6Return :
    evalBase s.call .accept (s.chnroute6Return ++ rest) p =
      if s.bypassChnroute && s.chinaIp6s.any (ip6DaddrIn · p) then (p, .accept)
      else evalBase s.call .accept rest p := by
  unfold chnroute6Return
  cases s.chinaIp6s with
  | none => simp
  | some nets =>
    cases s.bypassChnroute with
    | false => simp
    | true => simp [evalBase_guardRule_ret]

/-- What the rules against foreign QUIC do: the tests of a rule, and the action that is switched
on. -/
def banResult (hit : Bool) (p : Packet) (next : Packet × FilterVerdict) : Packet × FilterVerdict :=
  match if hit then s.banForeignQuic else none with
  | some action => (p, action.verdict)
  | none => next

theorem evalBase_banQuicV4Rule :
    evalBase s.call .accept (s.banQuicV4Rule ++ rest) p =
      s.banResult (s.chinaIps.any (ipDaddrNotIn · p) && (ipDaddrNotIn s.reservedIp p &&
        (ipDaddrNotIn [lanNet] p && udpDportIn [443] p))) p (evalBase s.call .accept rest p) := by
  unfold banQuicV4Rule banResult
  cases s.chinaIps with
  | none => simp
  | some nets =>
    cases s.banForeignQuic with
    | none => simp
    | some action =>
      simp only [List.cons_append, List.nil_append, evalBase_guardRule_final, List.all_cons,
        List.all_nil, Bool.and_true, Option.any_some]
      split_ifs <;> rfl

theorem evalBase_banQuicV6Rule :
    evalBase s.call .accept (s.banQuicV6Rule ++ rest) p =
      s.banResult (s.chinaIp6s.any (ip6DaddrNotIn · p) && (ip6DaddrNotIn reservedIp6 p &&
        udpDportIn [443] p)) p (evalBase s.call .accept rest p) := by
  unfold banQuicV6Rule banResult
  cases s.chinaIp6s with
  | none => simp
  | some nets =>
    cases s.banForeignQuic with
    | none => simp
    | some action =>
      simp only [List.cons_append, List.nil_append, evalBase_guardRule_final, List.all_cons,
        List.all_nil, Bool.and_true, Option.any_some]
      split_ifs <;> rfl

theorem anyContains_singleton (net : IpNet) (ip : IpAddr) :
    anyContains [net] ip = net.contains ip := by
  simp [anyContains]

/-- `fd00::/8` is a part of `fc00::/7`: the rules on the home network of IPv6 are never reached. -/
theorem anyContains_reservedIp6 {ip : IpAddr} (h : lanNet6.contains ip = true) :
    anyContains reservedIp6 ip = true := by
  cases ip with
  | v4 ip => simp [lanNet6, IpNet.contains] at h
  | v6 ip =>
    have hlan := congrArg (List.take 7) (eq_of_beq h)
    rw [List.take_take, List.take_take] at hlan
    have hula : IpNet.contains ⟨.v6 (.new 0xfc00 0 0 0 0 0 0 0), 7⟩ (.v6 ip) = true :=
      beq_iff_eq.mpr hlan
    simp [anyContains, reservedIp6, hula]

/-- The common rules let on what is neither left alone nor refused. -/
theorem evalBase_commonRules :
    evalBase s.call .accept (s.commonRules ++ rest) p =
      if s.exempt p.flow then (p, .accept)
      else
        match s.banned p.flow with
        | some action => (p, action.verdict)
        | none => evalBase s.call .accept rest p := by
  simp only [commonRules, List.append_assoc, List.cons_append, List.nil_append,
    evalBase_bypassSaddrRules, evalBase_guardRule_ret, evalBase_chnrouteReturn,
    evalBase_chnroute6Return, evalBase_lanUdpPorts, evalBase_banQuicV4Rule, evalBase_banQuicV6Rule]
  generalize evalBase s.call .accept rest p = next
  cases hheader : p.flow.header with
  | v4 saddr daddr =>
    simp only [exempt, banned, foreignQuic, banResult, ipSaddrIn, ipDaddrInSet, ipDaddrIn,
      ipDaddrNotIn, ip6DaddrIn, ip6DaddrNotIn, udpDportIn, isProto, dportIn, hheader, List.all_cons,
      List.all_nil, Bool.and_true, Bool.and_false, Bool.false_and, Option.any_false,
      anyContains_singleton, Bool.false_eq_true, if_false]
    -- a reserved address is left alone before the rule against foreign QUIC tests for it again
    cases hreserved : anyContains s.reservedIp (.v4 daddr) with
    | true => simp
    | false =>
      cases hlan : lanNet.contains (.v4 daddr) with
      | false => grind
      | true => grind
  | v6 saddr daddr =>
    simp only [exempt, banned, foreignQuic, banResult, ipSaddrIn, ipDaddrInSet, ipDaddrIn,
      ipDaddrNotIn, ip6DaddrIn, ip6DaddrNotIn, udpDportIn, isProto, dportIn, hheader, List.all_cons,
      List.all_nil, Bool.and_true, Bool.and_false, Bool.false_and, Option.any_false,
      anyContains_singleton, Bool.false_eq_true, if_false]
    cases hreserved : anyContains reservedIp6 (.v6 daddr) with
    | true => simp
    | false =>
      have hlan : lanNet6.contains (.v6 daddr) = false :=
        Bool.eq_false_iff.mpr fun h => by simp [anyContains_reservedIp6 h] at hreserved
      grind

/-! ### The chains -/

/-- The packet as `tproxy` hands it to the listener of the proxy; without a transparent socket it
only has the mark. -/
def toProxy (p : Packet) : Packet :=
  if sockets.tproxy p.flow then
    { p.setMark with
      assigned := some (match p.flow.header with
        | .v4 _ _ => .v4 ⟨127, 0, 0, 1⟩ tproxyPort
        | .v6 _ _ => .v6 (.new 0 0 0 0 0 0 0 1) tproxyPort 0 0) }
  else p.setMark

/-- The TCP flows with a transparent socket of their own. -/
def diverted (f : Flow) : Bool :=
  f.l4proto == .tcp && (sockets.lookup f).any fun info => info.transparent && !info.wildcard

/-- The owner of the packet is let past the proxy. -/
def ownerBypassed (p : Packet) : Bool :=
  s.bypassSkuid.any fun uid => p.skuid == some uid

/-- A rule that marks the packet and then may not hold. -/
theorem evalRule_tproxy (proto : L4Proto) (ports : List UInt16) (take : Packet → Option Packet) :
    evalRule [.test (isProto proto), .test (dportIn ports), .act fun p => some p.setMark, .act take,
        .verdict (.final .accept)] p =
      (if isProto proto p && dportIn ports p then
        match take p.setMark with
        | some p' => (p', some (.final .accept))
        | none => (p.setMark, none)
      else (p, none) : Packet × Option (Verdict FilterVerdict ChainName)) := by
  simp only [evalRule]
  cases isProto proto p with
  | false => rfl
  | true =>
    cases dportIn ports p with
    | false => rfl
    | true => cases take p.setMark <;> rfl

theorem evalBase_tproxyRules (proto : L4Proto) (ports : List UInt16) :
    evalBase s.call .accept (tproxyRules sockets proto ports ++ rest) p =
      if isProto proto p && dportIn ports p then
        if sockets.tproxy p.flow then (toProxy sockets p, .accept)
        else evalBase s.call .accept rest p.setMark
      else evalBase s.call .accept rest p := by
  have hrule := fun p take => evalRule_tproxy p proto ports take
  rw [tproxyRules, List.cons_append, List.cons_append, List.nil_append]
  cases hmatch : isProto proto p && dportIn ports p with
  | false =>
    have hnone (take) := (hrule p take).trans (if_neg (by simp [hmatch]))
    rw [evalBase_cons_none _ _ _ _ (hnone _), evalBase_cons_none _ _ _ _ (hnone _)]
    rfl
  | true =>
    have hmatch' : (isProto proto p.setMark && dportIn ports p.setMark) = true := hmatch
    have hset (take) := (hrule p take).trans (if_pos hmatch)
    have hset' (take) := (hrule p.setMark take).trans (if_pos hmatch')
    have hflow : p.setMark.flow = p.flow := rfl
    have htwice : p.setMark.setMark = p.setMark := rfl
    -- one of the two rules does not hold for the family of the packet, and sets the mark
    cases hheader : p.flow.header with
    | v4 saddr daddr =>
      cases hsocket : sockets.tproxy p.flow with
      | true =>
        rw [evalBase_cons_final _ _ _ _ ((hset _).trans (by
          rw [tproxyIp, hflow, hheader, hsocket, if_pos rfl]))]
        simp [toProxy, setMark, hheader, hsocket]
      | false =>
        rw [evalBase_cons_none _ _ _ _ ((hset _).trans (by
          rw [tproxyIp, hflow, hheader, hsocket, if_neg Bool.false_ne_true]))]
        rw [evalBase_cons_none _ _ _ _ ((hset' _).trans (by
          rw [htwice, tproxyIp6, hflow, hheader]))]
        rfl
    | v6 saddr daddr =>
      rw [evalBase_cons_none _ _ _ _ ((hset _).trans (by rw [tproxyIp, hflow, hheader]))]
      cases hsocket : sockets.tproxy p.flow with
      | true =>
        rw [evalBase_cons_final _ _ _ _ ((hset' _).trans (by
          rw [htwice, tproxyIp6, hflow, hheader, hsocket, if_pos rfl]))]
        simp [toProxy, setMark, hheader, hsocket]
      | false =>
        rw [evalBase_cons_none _ _ _ _ ((hset' _).trans (by
          rw [htwice, tproxyIp6, hflow, hheader, hsocket, if_neg Bool.false_ne_true]))]
        rfl

/-- The rules on the ports take the selected flows to the proxy. -/
theorem evalBase_portRules :
    evalBase s.call .accept
        (tproxyRules sockets .tcp s.tcpPorts ++ tproxyRules sockets .udp s.udpPorts) p =
      if s.selected p.flow then (toProxy sockets p, .accept) else (p, .accept) := by
  have hudp (p : Packet) : evalBase s.call .accept (tproxyRules sockets .udp s.udpPorts) p =
      if isProto .udp p && dportIn s.udpPorts p then (toProxy sockets p, .accept)
      else (p, .accept) := by
    rw [← List.append_nil (tproxyRules sockets .udp s.udpPorts), evalBase_tproxyRules, evalBase_nil,
      evalBase_nil]
    unfold toProxy
    split_ifs <;> rfl
  rw [evalBase_tproxyRules, hudp, hudp]
  cases hproto : p.flow.l4proto with
  | tcp =>
    have hother (q : Packet) (hq : q.flow = p.flow) : isProto .udp q = false := by
      simp [isProto, hq, hproto]
    rw [selected, hproto, hother p rfl, hother p.setMark rfl]
    simp only [isProto, dportIn, hproto, beq_self_eq_true, Bool.true_and, Bool.false_and,
      Bool.false_eq_true, if_false]
    cases hsocket : sockets.tproxy p.flow <;> simp [toProxy, hsocket]
  | udp => simp [selected, isProto, dportIn, hproto]
  | other => simp [selected, isProto, hproto]

theorem all_divertTests :
    ([isProto .tcp, socketTransparent sockets, socketNotWildcard sockets].all (· p)) =
      diverted sockets p.flow := by
  unfold diverted
  cases hlookup : sockets.lookup p.flow <;>
    simp [isProto, socketTransparent, socketNotWildcard, hlookup]

/-- **The capture of arriving packets.** The rules of `prerouting` come to this: packets of the
proxy and those from other interfaces are let through, packets of open connections with the proxy
are marked, and all others are treated as their flow says. -/
theorem runPrerouting_eq :
    s.runPrerouting sockets p =
      if p.mark == bypassMark || !(s.ingressIfaces ++ ["lo"]).contains p.iifname then (p, .accept)
      else if diverted sockets p.flow then (p.setMark, .accept)
      else s.policy (toProxy sockets) p := by
  rw [runPrerouting, prerouting, policy, List.append_assoc, List.append_assoc]
  simp only [List.cons_append, List.nil_append]
  rw [evalBase_guardRule_ret, evalBase_guardRule_ret, divertRule, evalBase_changeRule,
    all_divertTests, evalBase_commonRules, evalBase_portRules]
  simp only [List.all_cons, List.all_nil, Bool.and_true]
  cases p.mark == bypassMark <;> cases (s.ingressIfaces ++ ["lo"]).contains p.iifname <;> rfl

theorem evalBase_skuidBypassRule :
    evalBase s.call .accept (s.skuidBypassRule ++ rest) p =
      if s.ownerBypassed p then (p, .accept) else evalBase s.call .accept rest p := by
  unfold skuidBypassRule ownerBypassed
  cases s.bypassSkuid with
  | none => simp
  | some uid => simp [evalBase_guardRule_ret]

theorem evalBase_markRules :
    evalBase s.call .accept [markRule .tcp s.tcpPorts, markRule .udp s.udpPorts] p =
      if s.selected p.flow then (p.setMark, .accept) else (p, .accept) := by
  rw [markRule, markRule, evalBase_changeRule, evalBase_changeRule, evalBase_nil]
  unfold selected
  cases hproto : p.flow.l4proto <;> simp [isProto, dportIn, hproto]

/-- **The capture of the machine's own packets.** The rules of `output` come to the same policy, but
for the packets of the proxy and of one user. -/
theorem runOutput_eq :
    s.runOutput p =
      if p.mark == bypassMark || s.ownerBypassed p then (p, .accept) else s.policy setMark p := by
  rw [runOutput, output, policy, List.append_assoc, List.append_assoc]
  simp only [List.cons_append, List.nil_append]
  rw [evalBase_guardRule_ret, evalBase_skuidBypassRule, evalBase_commonRules, evalBase_markRules]
  simp only [List.all_cons, List.all_nil, Bool.and_true]
  cases p.mark == bypassMark <;> cases s.ownerBypassed p <;> rfl

end Setup

end XtpRs.Scripts
