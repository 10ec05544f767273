import XtpRs.Net.Socks5Udp

/-!
# UDP sessions

`src/udp/session.rs`: the key of a UDP flow, the specification from which a session is created,
the session object, and `UdpSession::send_payload`, which sends one client payload over the
outbound of the session.

A session is shared by the session map, the tasks that forward payloads and its receive task. Its
cancel token, its activity timestamp and the state of its receive task are fields of the object;
the tasks that change them are in `XtpRs.Udp.Runtime`.

## Main definitions

* `UdpSessionKey`, `UdpSessionSpec`, `UdpSessionSpec.forTproxy`, `UdpSessionSpec.forPortForward`.
* `UdpSession`, `UdpSession.sendPayload`.
-/

namespace XtpRs.Udp

/-- `UdpSessionKind`. -/
inductive UdpSessionKind
  | tproxy
  | portForward (listenAddr : SocketAddr)
  deriving DecidableEq, Repr

/-- `UdpSessionKey`: a UDP flow. -/
structure UdpSessionKey where
  kind : UdpSessionKind
  clientAddr : SocketAddr
  targetAddr : SocketAddr
  deriving DecidableEq, Repr

/-- `UdpReplyPath`; a listening socket is named by a number. -/
inductive UdpReplyPath
  | tproxy
  | portForward (listenSock : ℕ)
  deriving DecidableEq, Repr

/-- `UdpRoutingMode`. -/
inductive UdpRoutingMode
  | auto
  | forceSocks5
  deriving DecidableEq, Repr

/-- `UdpSessionSpec`: what a session is created from. -/
structure UdpSessionSpec where
  key : UdpSessionKey
  routing : UdpRoutingMode
  replyPath : UdpReplyPath
  sniffedHost : Option Str
  deriving DecidableEq, Repr

namespace UdpSessionSpec

/-- `UdpSessionSpec::for_tproxy`. -/
def forTproxy (clientAddr origDst : SocketAddr) : UdpSessionSpec where
  key := { kind := .tproxy, clientAddr, targetAddr := origDst }
  routing := .auto
  replyPath := .tproxy
  sniffedHost := none

/-- `UdpSessionSpec::for_port_forward`. -/
def forPortForward (listenAddr clientAddr remote : SocketAddr) (listenSock : ℕ) :
    UdpSessionSpec where
  key := { kind := .portForward listenAddr, clientAddr, targetAddr := remote }
  routing := .forceSocks5
  replyPath := .portForward listenSock
  sniffedHost := none

end UdpSessionSpec

/-- `UdpOutbound`: a connected socket to the target, or a SOCKS5 UDP association. -/
inductive UdpOutbound
  | direct
  | socks5
  deriving DecidableEq, Repr

/-- The receive task spawned by `create_udp_session`. -/
inductive RecvTask
  /-- Spawned; the receive loop has not sent on `ready_tx` yet. -/
  | starting
  /-- Inside the receive loop. -/
  | running
  /-- The loop has returned and the cancel token is set; the map entry is still to be removed. -/
  | exited
  /-- Past the removal of the map entry. -/
  | finished
  /-- Aborted through its `JoinHandle`. -/
  | aborted
  deriving DecidableEq, Repr

/-- `UdpSession`, with the state of its receive task. -/
structure UdpSession where
  spec : UdpSessionSpec
  outbound : UdpOutbound
  lastSeenSecs : ℕ
  cancelled : Bool
  recvTask : RecvTask
  deriving DecidableEq, Repr

/-- What a call of `send_payload` puts on a socket. -/
inductive Emission
  | direct (payload : Bytes)
  | socks5 (packet : Bytes)
  deriving DecidableEq, Repr

namespace UdpSession

def key (s : UdpSession) : UdpSessionKey := s.spec.key

/-- The SOCKS5 target chosen by `send_payload`: the sniffed host with the port of the target
address, or the target address. -/
def socks5Target (s : UdpSession) : Socks5UdpTarget :=
  match s.spec.sniffedHost with
  | some host => .domain host s.key.targetAddr.port
  | none => .ip s.key.targetAddr

/-- `UdpSession::send_payload`: nothing is sent over a cancelled session, nor when the packet
cannot be built. -/
def sendPayload (s : UdpSession) (payload : Bytes) : Option Emission :=
  if s.cancelled then
    none
  else
    match s.outbound with
    | .direct => some (.direct payload)
    | .socks5 =>
      match buildSocks5UdpPacket s.socks5Target payload with
      | .ok packet => some (.socks5 packet)
      | .error _ => none

/-- A session without a sniffed host addresses its packets to the target of its key. -/
theorem sendPayload_of_sniffedHost_none {s : UdpSession} (hhost : s.spec.sniffedHost = none)
    (hout : s.outbound = .socks5) {payload : Bytes} {e : Emission}
    (h : s.sendPayload payload = some e) :
    e = .socks5 (socks5UdpIpHeader s.key.targetAddr ++ payload) := by
  simp only [sendPayload, socks5Target, hhost, hout, buildSocks5UdpPacket_ip] at h
  split_ifs at h
  exact (Option.some.inj h).symm

end UdpSession

end XtpRs.Udp
