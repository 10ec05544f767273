import XtpRs.Net.Addr

/-!
# UDP sniffers

`src/sniff/udp.rs`: the interface between the UDP handlers and the protocol sniffers. A sniffer
session is fed the payloads of one flow, one after the other, and answers each with an outcome.
The trait objects of the source become a type `S` of session states with one function `feed`; a
sniffer is the state of a new session.
-/

namespace XtpRs.Sniff

/-- `UdpSniffProtocol`. -/
inductive UdpSniffProtocol
  | quicSni
  deriving DecidableEq, Repr

/-- `UdpSniffError`. -/
inductive UdpSniffError
  | protocolNotMatched
  | insufficientPrefix
  | noTarget
  | parseError
  | invalidHostname
  | tooLarge
  deriving DecidableEq, Repr

/-- `UdpSniffOutcome`. -/
inductive UdpSniffOutcome
  | matched (protocol : UdpSniffProtocol) (host : Str)
  | notMatched
  | needMore (protocol : UdpSniffProtocol)
  | failed (protocol : UdpSniffProtocol) (error : UdpSniffError)
  deriving DecidableEq, Repr

/-- The sniffers of an `AppState`, in order, each as the state of a new session, and
`UdpSnifferSessionEngine::feed`. -/
structure UdpSniffers (S : Type) where
  newSessions : List S
  feed : S → Bytes → UdpSniffOutcome × S

end XtpRs.Sniff
