import XtpRs.Lib.StreamProgram
import XtpRs.Net.Addr

/-!
# The SOCKS5 handshake of a TCP connection

`socks5_auth` and `socks5_connect` of `src/socks5.rs` talk to the proxy over a stream: they write
requests and read as many bytes of the replies as these have. A stream is what the proxy sends and
has not been read yet, in the pieces in which it arrives, and what has been written to it. A read of
more bytes than the proxy ever sends is an error. Opening the stream is left out, and so are errors
of the socket.

## Main definitions

* `socks5Auth`, `socks5ConnectRequest`, `socks5Connect`.
-/

namespace XtpRs

open Lib

/-- A stream to the proxy. -/
structure ProxyStream where
  incoming : Pieces UInt8
  sent : Bytes := []
  deriving DecidableEq, Repr

/-- What has not been read yet. -/
def ProxyStream.unread (s : ProxyStream) : Bytes := s.incoming.flatten

/-- A computation on a stream that can fail. -/
abbrev OnStream (α : Type) := StateT ProxyStream (Except String) α

namespace OnStream

/-- `write_all`. -/
def writeAll (data : Bytes) : OnStream Unit :=
  modify fun s => { s with sent := s.sent ++ data }

/-- `read_exact` of `n` bytes; `context` says what failed. -/
def readExact (n : ℕ) (context : String) : OnStream Bytes := do
  let s ← get
  match Pieces.readExact n s.incoming with
  | none => throw context
  | some (data, rest) =>
    set { s with incoming := rest }
    return data

end OnStream

open OnStream

/-- The digits of `{:#x}`. -/
def hexText (b : UInt8) : String := "0x" ++ String.ofList (Nat.toDigits 16 b.toNat)

/-- `Socks5Target`. -/
inductive Socks5Target
  | ip (addr : SocketAddr)
  | domain (host : Str) (port : UInt16)
  deriving DecidableEq, Repr

/-- The part of `socks5_auth` with a user name and a password. -/
def socks5PasswordAuth (user pass : Str) : OnStream Unit := do
  if user.isEmpty || 255 < user.length || pass.isEmpty || 255 < pass.length then
    throw "invalid SOCKS5 username/password length"
  writeAll [0x05, 0x02, 0x00, 0x02]
  let resp ← readExact 2 "failed to read SOCKS5 method selection"
  if resp.getD 0 0 ≠ 0x05 then throw "invalid SOCKS5 version in method selection"
  let method := resp.getD 1 0
  if method = 0x00 then throw "SOCKS5 server chose no-auth, but username/password required"
  else if method = 0x02 then
    writeAll ([0x01] ++ [UInt8.ofNat user.length] ++ user ++ [UInt8.ofNat pass.length] ++ pass)
    let upResp ← readExact 2 "failed to read SOCKS5 username/password reply"
    if upResp.getD 0 0 ≠ 0x01 ∨ upResp.getD 1 0 ≠ 0x00 then
      throw "SOCKS5 username/password authentication failed"
  else throw ("unsupported SOCKS5 auth method chosen: " ++ hexText method)

/-- `socks5_auth`. -/
def socks5Auth (creds : Option (Str × Str)) : OnStream Unit :=
  match creds with
  | some (user, pass) => socks5PasswordAuth user pass
  | none => do
    writeAll [0x05, 0x01, 0x00]
    let buf ← readExact 2 "failed to read SOCKS5 no-auth response"
    if buf ≠ [0x05, 0x00] then
      throw s!"SOCKS5 no-auth negotiation failed, got {buf.map UInt8.toNat}"

/-- The request of `socks5_connect`. -/
def socks5ConnectRequest (target : Socks5Target) : Except String Bytes :=
  match target with
  | .ip (.v4 ip port) => .ok ([0x05, 0x01, 0x00] ++ [0x01] ++ ip.octets ++ u16ToBeBytes port)
  | .ip (.v6 ip port _ _) => .ok ([0x05, 0x01, 0x00] ++ [0x04] ++ ip.octets ++ u16ToBeBytes port)
  | .domain host port =>
    if host.isEmpty || 255 < host.length then
      .error s!"invalid SOCKS5 domain length: {host.length}"
    else
      .ok ([0x05, 0x01, 0x00] ++ [0x03] ++ [UInt8.ofNat host.length] ++ host ++ u16ToBeBytes port)

/-- The length of what follows the first four bytes of a reply. -/
def socks5ReplyRest (atyp : UInt8) : OnStream ℕ := do
  if atyp = 0x01 then return 4 + 2
  else if atyp = 0x04 then return 16 + 2
  else if atyp = 0x03 then
    let l ← readExact 1 "early eof"
    return (l.getD 0 0).toNat + 2
  else throw ("invalid SOCKS5 address type in response: " ++ hexText atyp)

/-- `socks5_connect`, on an open stream. -/
def socks5Connect (target : Socks5Target) (creds : Option (Str × Str)) : OnStream Unit := do
  socks5Auth creds
  let req ← socks5ConnectRequest target
  writeAll req
  let resp ← readExact 4 "failed to read SOCKS5 connect response"
  if resp.getD 0 0 ≠ 0x05 then
    throw ("invalid SOCKS5 version in connect response: " ++ hexText (resp.getD 0 0))
  if resp.getD 1 0 ≠ 0x00 then
    throw ("SOCKS5 connect failed, reply code " ++ hexText (resp.getD 1 0))
  if resp.getD 2 0 ≠ 0x00 then
    throw ("invalid SOCKS5 reserved field in connect response: " ++ hexText (resp.getD 2 0))
  let skipLen ← socks5ReplyRest (resp.getD 3 0)
  let _ ← readExact skipLen "failed to skip SOCKS5 address in response"

end XtpRs
