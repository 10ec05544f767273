import XtpRs.Net.Socks5Handshake
import XtpRs.Sniff.Tls

/-!
# The SOCKS5 UDP association

`socks5_udp_associate_for_client` of `src/socks5.rs` asks the proxy over a control stream for a
relay of datagrams. The reply to CONNECT and the reply to UDP ASSOCIATE have one form, but this time
its address is read and not skipped: it is where the datagrams go. A relay given by its domain is
resolved, and a relay without an address is on the host of the proxy itself.

Opening the control stream and the datagram socket is left out. The resolver of the host is a
parameter.

## Main definitions

* `socks5UdpAssociate`: `socks5_udp_associate_for_client` on an open control stream.
* `relayOf`, `effectiveRelay`: the relay that a reply stands for.

## Main results

* `parses_socks5UdpAssociate`: the language of the association.
* `socks5UdpAssociate_reply`: the relay is the one in the reply, for every form of address.
-/

namespace XtpRs

open Lib OnStream
open Sniff (fromUtf8)

def IpAddr.isUnspecified : IpAddr → Bool
  | v4 ip => ip.isUnspecified
  | v6 ip => ip.isUnspecified

/-- `tokio::net::lookup_host` of a host and a port: the addresses found, or an error. -/
abbrev LookupHost := Str → UInt16 → Except String (List SocketAddr)

/-- The request of `socks5_udp_associate_for_client`. The client does not say where its datagrams
will come from; the family of the address is that of the proxy. -/
def udpAssociateRequest : SocketAddr → Bytes
  | .v4 _ _ => [0x05, 0x03, 0x00, 0x01, 0, 0, 0, 0, 0, 0]
  | .v6 _ _ _ _ => [0x05, 0x03, 0x00, 0x04] ++ List.replicate 16 0 ++ List.replicate 2 0

/-- The relay with a domain: the first address that the resolver finds. -/
def resolveRelay (lookupHost : LookupHost) (name : Bytes) (port : UInt16) :
    Except String SocketAddr :=
  match fromUtf8 name with
  | none => .error "invalid relay domain name in SOCKS5 UDP ASSOCIATE reply"
  | some host =>
    match lookupHost host port with
    | .error _ => .error "failed to resolve relay domain"
    | .ok [] => .error "failed to resolve relay domain to an IP address"
    | .ok (addr :: _) => .ok addr

/-- The address of the reply by its type. -/
def readRelayAddr (lookupHost : LookupHost) (atyp : UInt8) : OnStream SocketAddr := do
  if atyp = 0x01 then
    let buf ← readExact 6 "early eof"
    let ip : Ipv4Addr := ⟨buf.getD 0 0, buf.getD 1 0, buf.getD 2 0, buf.getD 3 0⟩
    return .new (.v4 ip) (u16FromBeBytes (buf.getD 4 0) (buf.getD 5 0))
  else if atyp = 0x04 then
    let buf ← readExact 18 "early eof"
    let ip := Ipv6Addr.ofOctets (buf.take 16)
    return .new (.v6 ip) (u16FromBeBytes (buf.getD 16 0) (buf.getD 17 0))
  else if atyp = 0x03 then
    let l ← readExact 1 "early eof"
    let len := (l.getD 0 0).toNat
    let rest ← readExact (len + 2) "early eof"
    resolveRelay lookupHost (rest.take len)
      (u16FromBeBytes (rest.getD len 0) (rest.getD (len + 1) 0))
  else throw ("invalid address type in SOCKS5 UDP ASSOCIATE reply: " ++ hexText atyp)

/-- The relay to use: one without an address is reached at the address of the proxy. -/
def effectiveRelay (socks5Addr relayAddr : SocketAddr) : SocketAddr :=
  if relayAddr.ip.isUnspecified then .new socks5Addr.ip relayAddr.port else relayAddr

/-- `socks5_udp_associate_for_client`, on an open control stream: the address of the relay. -/
def socks5UdpAssociate (lookupHost : LookupHost) (socks5Addr : SocketAddr)
    (creds : Option (Str × Str)) : OnStream SocketAddr := do
  socks5Auth creds
  writeAll (udpAssociateRequest socks5Addr)
  let head ← readExact 4 "failed to read SOCKS5 UDP ASSOCIATE reply header"
  if head.getD 0 0 ≠ 0x05 then throw "invalid SOCKS5 version in UDP ASSOCIATE reply"
  if head.getD 1 0 ≠ 0x00 then
    throw ("SOCKS5 UDP ASSOCIATE failed, reply code " ++ hexText (head.getD 1 0))
  if head.getD 2 0 ≠ 0x00 then
    throw ("invalid SOCKS5 reserved field in UDP ASSOCIATE reply: " ++ hexText (head.getD 2 0))
  let relayAddr ← readRelayAddr lookupHost (head.getD 3 0)
  return effectiveRelay socks5Addr relayAddr

/-! ### The address of a reply -/

/-- The relay that the address and the port of a reply stand for. -/
def relayOf (lookupHost : LookupHost) (addr : BndAddr) (port : UInt16) :
    Except String SocketAddr :=
  match addr with
  | .v4 ip => .ok (.v4 ip port)
  | .v6 ip => .ok (.v6 ip port 0 0)
  | .domain name _ => resolveRelay lookupHost name port

/-- What is read behind the type of an address: the rest of some address and port, which stand for
the relay. -/
def IsRelayRest (lookupHost : LookupHost) (atyp : UInt8) (relay : SocketAddr) (word : Bytes) :
    Prop :=
  ∃ addr port, atyp :: word = BndAddr.bytes addr ++ u16ToBeBytes port ∧
    relayOf lookupHost addr port = .ok relay

theorem u16FromBeBytes_u16ToBeBytes (port : UInt16) :
    u16FromBeBytes ((u16ToBeBytes port).getD 0 0) ((u16ToBeBytes port).getD 1 0) = port :=
  u16FromBeBytes_toBeBytes port

/-- The port behind an address of `n` bytes. -/
theorem u16FromBeBytes_append {addr : Bytes} {n : ℕ} (hn : addr.length = n) (port : UInt16) :
    u16FromBeBytes ((addr ++ u16ToBeBytes port).getD n 0)
      ((addr ++ u16ToBeBytes port).getD (n + 1) 0) = port := by
  have hget (i : ℕ) :
      (addr ++ u16ToBeBytes port).getD (n + i) 0 = (u16ToBeBytes port).getD i 0 := by
    rw [List.getD_append_right _ _ _ _ (by omega), hn, Nat.add_sub_cancel_left]
  have hhi : (addr ++ u16ToBeBytes port).getD n 0 = (u16ToBeBytes port).getD 0 0 := hget 0
  rw [hhi, hget 1, u16FromBeBytes_u16ToBeBytes]

theorem take_append_port {addr : Bytes} {n : ℕ} (hn : addr.length = n) (port : UInt16) :
    (addr ++ u16ToBeBytes port).take n = addr := by
  rw [← hn, List.take_left]

theorem isRelayRest_v4_iff (lookupHost : LookupHost) (relay : SocketAddr) (word : Bytes) :
    IsRelayRest lookupHost 0x01 relay word ↔
      ∃ ip port, word = Ipv4Addr.octets ip ++ u16ToBeBytes port ∧ .v4 ip port = relay := by
  constructor
  · rintro ⟨addr, port, hword, hrelay⟩
    cases addr with
    | v4 ip => exact ⟨ip, port, (List.cons.inj hword).2, Except.ok.inj hrelay⟩
    | v6 ip => exact absurd (List.cons.inj hword).1 (by decide)
    | domain name hname => exact absurd (List.cons.inj hword).1 (by decide)
  · rintro ⟨ip, port, rfl, rfl⟩
    exact ⟨.v4 ip, port, rfl, rfl⟩

theorem isRelayRest_v6_iff (lookupHost : LookupHost) (relay : SocketAddr) (word : Bytes) :
    IsRelayRest lookupHost 0x04 relay word ↔
      ∃ ip port, word = Ipv6Addr.octets ip ++ u16ToBeBytes port ∧ .v6 ip port 0 0 = relay := by
  constructor
  · rintro ⟨addr, port, hword, hrelay⟩
    cases addr with
    | v4 ip => exact absurd (List.cons.inj hword).1 (by decide)
    | v6 ip => exact ⟨ip, port, (List.cons.inj hword).2, Except.ok.inj hrelay⟩
    | domain name hname => exact absurd (List.cons.inj hword).1 (by decide)
  · rintro ⟨ip, port, rfl, rfl⟩
    exact ⟨.v6 ip, port, rfl, rfl⟩

theorem isRelayRest_domain_iff (lookupHost : LookupHost) (relay : SocketAddr) (word : Bytes) :
    IsRelayRest lookupHost 0x03 relay word ↔
      ∃ (l : UInt8) (name : Bytes) (port : UInt16), word = l :: (name ++ u16ToBeBytes port) ∧
        name.length = l.toNat ∧ resolveRelay lookupHost name port = .ok relay := by
  constructor
  · rintro ⟨addr, port, hword, hrelay⟩
    cases addr with
    | v4 ip => exact absurd (List.cons.inj hword).1 (by decide)
    | v6 ip => exact absurd (List.cons.inj hword).1 (by decide)
    | domain name hname =>
      have hlength : (UInt8.ofNat name.length).toNat = name.length :=
        UInt8.toNat_ofNat_of_lt' (Nat.lt_succ_of_le hname)
      exact ⟨_, name, port, (List.cons.inj hword).2, hlength.symm, hrelay⟩
  · rintro ⟨l, name, port, rfl, hname, hrelay⟩
    have hl := l.toNat_lt
    refine ⟨.domain name (by omega), port, ?_, hrelay⟩
    rw [BndAddr.bytes, hname, UInt8.ofNat_toNat]
    rfl

theorem parses_relayV4 (lookupHost : LookupHost) :
    Parses ProxyStream.unread
      (do
        let buf ← readExact 6 "early eof"
        let ip : Ipv4Addr := ⟨buf.getD 0 0, buf.getD 1 0, buf.getD 2 0, buf.getD 3 0⟩
        return .new (.v4 ip) (u16FromBeBytes (buf.getD 4 0) (buf.getD 5 0)))
      (IsRelayRest lookupHost 0x01) := by
  refine ((parses_readExact 6 _).bind fun buf _ _ => .pure _).congr fun relay word => ?_
  rw [isRelayRest_v4_iff]
  constructor
  · rintro ⟨ip, port, rfl, rfl⟩
    refine ⟨_, ip.octets ++ u16ToBeBytes port, [], by simp, ⟨rfl, rfl⟩, ?_, rfl⟩
    exact congrArg (SocketAddr.v4 ip) (u16FromBeBytes_u16ToBeBytes port).symm
  · rintro ⟨buf, _, _, rfl, ⟨rfl, hlength⟩, rfl, rfl⟩
    obtain ⟨octets, port, rfl, hoctets⟩ := exists_append_port (k := 4) hlength
    obtain ⟨a, b, c, d, rfl⟩ := exists_of_length_eq_four hoctets
    refine ⟨⟨a, b, c, d⟩, port, by simp [Ipv4Addr.octets], ?_⟩
    exact congrArg (SocketAddr.v4 ⟨a, b, c, d⟩) (u16FromBeBytes_u16ToBeBytes port).symm

theorem parses_relayV6 (lookupHost : LookupHost) :
    Parses ProxyStream.unread
      (do
        let buf ← readExact 18 "early eof"
        let ip := Ipv6Addr.ofOctets (buf.take 16)
        return .new (.v6 ip) (u16FromBeBytes (buf.getD 16 0) (buf.getD 17 0)))
      (IsRelayRest lookupHost 0x04) := by
  refine ((parses_readExact 18 _).bind fun buf _ _ => .pure _).congr fun relay word => ?_
  rw [isRelayRest_v6_iff]
  have hread (ip : Ipv6Addr) (port : UInt16) :
      SocketAddr.new (.v6 (Ipv6Addr.ofOctets ((ip.octets ++ u16ToBeBytes port).take 16)))
        (u16FromBeBytes ((ip.octets ++ u16ToBeBytes port).getD 16 0)
          ((ip.octets ++ u16ToBeBytes port).getD 17 0)) = .v6 ip port 0 0 := by
    rw [take_append_port ip.length_octets, Ipv6Addr.ofOctets_octets,
      u16FromBeBytes_append ip.length_octets]
    rfl
  constructor
  · rintro ⟨ip, port, rfl, rfl⟩
    refine ⟨_, ip.octets ++ u16ToBeBytes port, [], by simp, ⟨rfl, ?_⟩, (hread ip port).symm, rfl⟩
    rw [List.length_append, ip.length_octets]
    rfl
  · rintro ⟨buf, _, _, rfl, ⟨rfl, hlength⟩, rfl, rfl⟩
    obtain ⟨octets, port, rfl, hoctets⟩ := exists_append_port (k := 16) hlength
    exact ⟨⟨octets, hoctets⟩, port, by simp, (hread ⟨octets, hoctets⟩ port).symm⟩

theorem parses_relayDomain (lookupHost : LookupHost) :
    Parses ProxyStream.unread
      (do
        let l ← readExact 1 "early eof"
        let len := (l.getD 0 0).toNat
        let rest ← readExact (len + 2) "early eof"
        resolveRelay lookupHost (rest.take len)
          (u16FromBeBytes (rest.getD len 0) (rest.getD (len + 1) 0)))
      (IsRelayRest lookupHost 0x03) := by
  refine ((parses_readExact 1 _).bind fun l _ _ => (parses_readExact _ _).bind fun rest _ _ =>
    .lift _).congr fun relay word => ?_
  rw [isRelayRest_domain_iff]
  have hread {name : Bytes} {n : ℕ} (hn : name.length = n) (port : UInt16) :
      resolveRelay lookupHost ((name ++ u16ToBeBytes port).take n)
        (u16FromBeBytes ((name ++ u16ToBeBytes port).getD n 0)
          ((name ++ u16ToBeBytes port).getD (n + 1) 0)) =
      resolveRelay lookupHost name port := by
    rw [take_append_port hn, u16FromBeBytes_append hn]
  constructor
  · rintro ⟨l, name, port, rfl, hname, hrelay⟩
    refine ⟨[l], [l], name ++ u16ToBeBytes port, rfl, ⟨rfl, rfl⟩, name ++ u16ToBeBytes port,
      name ++ u16ToBeBytes port, [], by simp, ⟨rfl, ?_⟩, (hread hname port).trans hrelay, rfl⟩
    rw [List.length_append, hname]
    rfl
  · rintro ⟨_, data, _, rfl, ⟨rfl, hdata⟩, rest, _, _, rfl, ⟨rfl, hlength⟩, hrelay, rfl⟩
    obtain ⟨l, rfl⟩ := List.length_eq_one_iff.mp hdata
    obtain ⟨name, port, rfl, hname⟩ := exists_append_port hlength
    exact ⟨l, name, port, by simp, hname, (hread hname port).symm.trans hrelay⟩

theorem parses_readRelayAddr (lookupHost : LookupHost) (atyp : UInt8) :
    Parses ProxyStream.unread (readRelayAddr lookupHost atyp) (IsRelayRest lookupHost atyp) := by
  unfold readRelayAddr
  by_cases hv4 : atyp = 0x01
  · rw [if_pos hv4, hv4]
    exact parses_relayV4 lookupHost
  rw [if_neg hv4]
  by_cases hv6 : atyp = 0x04
  · rw [if_pos hv6, hv6]
    exact parses_relayV6 lookupHost
  rw [if_neg hv6]
  by_cases hdomain : atyp = 0x03
  · rw [if_pos hdomain, hdomain]
    exact parses_relayDomain lookupHost
  · rw [if_neg hdomain]
    refine (Parses.throw _).congr fun relay word => iff_of_false ?_ not_false
    rintro ⟨addr, port, hword, -⟩
    cases addr with
    | v4 ip => exact hv4 (List.cons.inj hword).1
    | v6 ip => exact hv6 (List.cons.inj hword).1
    | domain name hname => exact hdomain (List.cons.inj hword).1

/-! ### The association -/

/-- The language of the association: the replies of a server that accepts, whose address stands for
the relay. -/
theorem parses_socks5UdpAssociate (lookupHost : LookupHost) (socks5Addr : SocketAddr)
    (creds : Option (Str × Str)) :
    Parses ProxyStream.unread (socks5UdpAssociate lookupHost socks5Addr creds) fun relay word =>
      ValidCreds creds ∧ ∃ addr port raw,
        word = authReplies creds.isSome ++ connectReply addr port ∧
        relayOf lookupHost addr port = .ok raw ∧ relay = effectiveRelay socks5Addr raw := by
  refine ((parses_socks5Auth creds).bind fun _ _ _ => parses_request _
    ((parses_readExact 4 _).bind fun head _ _ => .guard fun _ => .guard fun _ => .guard fun _ =>
      (parses_readRelayAddr lookupHost _).bind fun _ _ _ => .pure _)).congr fun relay word => ?_
  constructor
  · rintro ⟨hcreds, addr, port, raw, rfl, hraw, rfl⟩
    have haddr : ∃ atyp rest, BndAddr.bytes addr ++ u16ToBeBytes port = atyp :: rest := by
      cases addr <;> exact ⟨_, _, rfl⟩
    obtain ⟨atyp, rest, hrest⟩ := haddr
    have hconnect : connectReply addr port = [0x05, 0x00, 0x00, atyp] ++ (rest ++ []) := by
      rw [connectReply, List.append_assoc, hrest, List.append_nil]
      rfl
    exact ⟨(), _, _, rfl, ⟨hcreds, rfl⟩, _, _, _, hconnect, ⟨rfl, rfl⟩, not_not.mpr rfl,
      not_not.mpr rfl, not_not.mpr rfl, raw, rest, [], rfl, ⟨addr, port, hrest.symm, hraw⟩, rfl,
      rfl⟩
  · rintro ⟨_, _, _, rfl, ⟨hcreds, rfl⟩, head, _, _, rfl, ⟨rfl, hhead⟩, hversion, hreply,
      hreserved, raw, rest, _, rfl, ⟨addr, port, hrest, hraw⟩, rfl, rfl⟩
    obtain ⟨v, r, z, atyp, rfl⟩ := exists_of_length_eq_four hhead
    obtain rfl : v = 0x05 := not_not.mp hversion
    obtain rfl : r = 0x00 := not_not.mp hreply
    obtain rfl : z = 0x00 := not_not.mp hreserved
    have hrest' : atyp :: rest = BndAddr.bytes addr ++ u16ToBeBytes port := hrest
    refine ⟨hcreds, addr, port, raw, ?_, hraw, rfl⟩
    rw [connectReply, List.append_assoc, ← hrest', List.append_nil]
    rfl

/-! ### What is written -/

/-- What the client writes to be let in. -/
def authRequests : Option (Str × Str) → Bytes
  | none => [0x05, 0x01, 0x00]
  | some (user, pass) =>
    [0x05, 0x02, 0x00, 0x02] ++
      ([0x01] ++ [UInt8.ofNat user.length] ++ user ++ [UInt8.ofNat pass.length] ++ pass)

theorem emits_writeAll (data : Bytes) : Emits ProxyStream.sent (writeAll data) data :=
  fun _ _ _ h => by cases h; rfl

theorem emits_readExact (n : ℕ) (context : String) :
    Emits ProxyStream.sent (readExact n context) [] :=
  .of_keeps fun s data s' h => by
    rw [readExact_apply] at h
    cases hread : Pieces.readExact n s.incoming with
    | none => rw [hread] at h; cases h
    | some r => rw [hread] at h; cases h; rfl

theorem emits_socks5Auth (creds : Option (Str × Str)) :
    Emits ProxyStream.sent (socks5Auth creds) (authRequests creds) := by
  cases creds with
  | none =>
    refine (emits_writeAll _).bind fun _ => (emits_readExact _ _).bind_nil fun _ => ?_
    exact .ite (.throw _) (.pure _)
  | some creds =>
    refine Emits.guard ((emits_writeAll _).bind fun _ => (emits_readExact _ _).bind_nil fun _ => ?_)
    refine Emits.guard (.ite (.throw _) (.ite ?_ (.throw _)))
    refine (emits_writeAll _).bind_nil_right fun _ => (emits_readExact _ _).bind_nil fun _ => ?_
    exact .ite (.throw _) (.pure _)

theorem emits_readRelayAddr (lookupHost : LookupHost) (atyp : UInt8) :
    Emits ProxyStream.sent (readRelayAddr lookupHost atyp) [] := by
  refine .ite ?_ (.ite ?_ (.ite ?_ (.throw _)))
  · exact (emits_readExact _ _).bind_nil fun _ => .pure _
  · exact (emits_readExact _ _).bind_nil fun _ => .pure _
  · exact (emits_readExact _ _).bind_nil fun _ => (emits_readExact _ _).bind_nil fun _ => .lift _

theorem emits_socks5UdpAssociate (lookupHost : LookupHost) (socks5Addr : SocketAddr)
    (creds : Option (Str × Str)) :
    Emits ProxyStream.sent (socks5UdpAssociate lookupHost socks5Addr creds)
      (authRequests creds ++ udpAssociateRequest socks5Addr) := by
  refine (emits_socks5Auth creds).bind fun _ => ?_
  refine (emits_writeAll _).bind_nil_right fun _ => (emits_readExact _ _).bind_nil fun _ => ?_
  refine Emits.guard (Emits.guard (Emits.guard ?_))
  exact (emits_readRelayAddr lookupHost _).bind_nil fun _ => .pure _

/-! ### The relay -/

/-- A relay keeps its port, and it has an address unless neither the reply nor the proxy has one. -/
theorem isUnspecified_effectiveRelay (socks5Addr raw : SocketAddr) :
    (effectiveRelay socks5Addr raw).port = raw.port ∧
      ((effectiveRelay socks5Addr raw).ip.isUnspecified → socks5Addr.ip.isUnspecified) := by
  unfold effectiveRelay
  split_ifs with h
  · simp
  · exact ⟨rfl, fun hraw => absurd hraw h⟩

/-- **The relay is the one in the reply.** Let the server's bytes arrive in any pieces. If they
begin with the replies of a server that accepts, with an address of any form that stands for some
relay, then the association succeeds with that relay, at the host of the proxy when the reply names
none; what follows the replies is left unread, and the client has written its greeting, its
credentials and one request. If they do not, the association fails. -/
theorem socks5UdpAssociate_reply (lookupHost : LookupHost) (socks5Addr : SocketAddr)
    {creds : Option (Str × Str)} (hcreds : ValidCreds creds) (pieces : List Bytes) :
    (∀ addr port raw payload, relayOf lookupHost addr port = .ok raw →
      pieces.flatten = authReplies creds.isSome ++ connectReply addr port ++ payload →
      ∃ s, socks5UdpAssociate lookupHost socks5Addr creds { incoming := pieces } =
          .ok (effectiveRelay socks5Addr raw, s) ∧
        s.unread = payload ∧ s.sent = authRequests creds ++ udpAssociateRequest socks5Addr) ∧
    ((∀ addr port raw payload, relayOf lookupHost addr port = .ok raw →
        pieces.flatten ≠ authReplies creds.isSome ++ connectReply addr port ++ payload) →
      ∃ e, socks5UdpAssociate lookupHost socks5Addr creds { incoming := pieces } = .error e) := by
  have hparses := parses_socks5UdpAssociate lookupHost socks5Addr creds
  constructor
  · intro addr port raw payload hraw hpieces
    obtain ⟨s, hok, hrest⟩ := hparses.returns (s := { incoming := pieces })
      ⟨hcreds, addr, port, raw, rfl, hraw, rfl⟩ hpieces
    exact ⟨s, hok, hrest, emits_socks5UdpAssociate lookupHost socks5Addr creds _ _ _ hok⟩
  · intro hno
    refine hparses.fails ?_
    rintro relay _ rest ⟨-, addr, port, raw, rfl, hraw, -⟩
    exact hno addr port raw rest hraw

/-- A proxy at `10.0.0.1` leaves the address of its relay open, in pieces cut across the parts of
the reply; another one names a relay that is not found. -/
theorem socks5UdpAssociate_reply_unspecified :
    (∃ s, socks5UdpAssociate (fun _ _ => .ok []) (.v4 ⟨10, 0, 0, 1⟩ 1080) none
        { incoming := [[0x05], [0x00, 0x05, 0x00, 0x00, 0x01], [0, 0, 0, 0, 0x04], [0xd2, 0xaa]] } =
          .ok (.v4 ⟨10, 0, 0, 1⟩ 1234, s) ∧
        s.unread = [0xaa] ∧
        s.sent = [0x05, 0x01, 0x00, 0x05, 0x03, 0x00, 0x01, 0, 0, 0, 0, 0, 0]) ∧
    ∃ e, socks5UdpAssociate (fun _ _ => .ok []) (.v4 ⟨10, 0, 0, 1⟩ 1080) none
        { incoming := [[0x05, 0x00, 0x05, 0x01]] } = .error e := by
  have hreply := @socks5UdpAssociate_reply (fun _ _ => .ok []) (.v4 ⟨10, 0, 0, 1⟩ 1080) none trivial
  constructor
  · exact (hreply _).1 (.v4 ⟨0, 0, 0, 0⟩) 1234 _ [0xaa] rfl rfl
  · refine (hreply _).2 ?_
    intro addr port raw payload _ heq
    simp [authReplies, connectReply] at heq

end XtpRs
