import XtpRs.Lib.Buffer
import XtpRs.Net.Socks5Udp

/-!
# SOCKS5 UDP packets

`parse_socks5_udp_packet_with_fallback_src` of `src/socks5.rs` takes a packet of the relay apart:
the address it came from and the payload. A packet with a domain in its header comes from the
fallback address. The parser reads the packet by index; reading behind its end would be a panic,
which the model keeps apart from the errors that the parser returns.

## Main definitions

* `parseSocks5UdpPacketWithFallbackSrc`: the code.

## Main results

* `parse_cases`: the forms of the packets that are accepted.
* `parse_build_ip`, `parse_build_domain`: what was built is parsed.
* `build_of_parse`: what was parsed with an IP address is built again.
* `socks5_udp_round_trip`: all of them together.
-/

namespace XtpRs

open Lib

/-- A computation that returns, fails with an error, or panics (`none`). -/
abbrev Checked (α : Type) := ExceptT String Option α

namespace Checked

/-- Indexing: a panic out of bounds. -/
def index (buf : Bytes) (i : ℕ) : Checked UInt8 :=
  ExceptT.lift buf[i]?

/-- Slicing: a panic out of bounds. -/
def range (buf : Bytes) (a b : ℕ) : Checked Bytes :=
  ExceptT.lift (if a ≤ b ∧ b ≤ buf.length then some (slice buf a b) else none)

variable {buf rest : Bytes} {a b : ℕ} {x : UInt8}

theorem index_eq (h : buf[a]? = some x) : index buf a = pure x := by
  rw [index, h]
  rfl

theorem range_eq (hab : a ≤ b) (hb : b ≤ buf.length) : range buf a b = pure (slice buf a b) := by
  rw [range, if_pos ⟨hab, hb⟩]
  rfl

end Checked

/-- `u16::from_be_bytes`. -/
def u16FromBeBytes (hi lo : UInt8) : UInt16 :=
  UInt16.ofNat (hi.toNat * 256 + lo.toNat)

/-- `Ipv6Addr::from` an array of octets. -/
def Ipv6Addr.ofOctets (octets : Bytes) : Ipv6Addr where
  octets := octets.take 16 ++ List.replicate (16 - octets.length) 0
  length_octets := by
    rw [List.length_append, List.length_take, List.length_replicate]
    omega

open Checked in
/-- The address of a packet by its type, and the offset behind it. -/
def parseSocks5UdpSrc (pkt : Bytes) (atyp : UInt8) (fallbackSrc : SocketAddr) :
    Checked (SocketAddr × ℕ) := do
  let off := 4
  if atyp = 0x01 then
    if pkt.length < off + 4 + 2 then throw "short IPv4 SOCKS5 UDP packet"
    let ip : Ipv4Addr := ⟨← index pkt off, ← index pkt (off + 1), ← index pkt (off + 2),
      ← index pkt (off + 3)⟩
    let off := off + 4
    let port := u16FromBeBytes (← index pkt off) (← index pkt (off + 1))
    return (.v4 ip port, off + 2)
  else if atyp = 0x04 then
    if pkt.length < off + 16 + 2 then throw "short IPv6 SOCKS5 UDP packet"
    let ip := Ipv6Addr.ofOctets (← range pkt off (off + 16))
    let off := off + 16
    let port := u16FromBeBytes (← index pkt off) (← index pkt (off + 1))
    return (.v6 ip port 0 0, off + 2)
  else if atyp = 0x03 then
    if pkt.length < off + 1 then throw "short domain SOCKS5 UDP packet"
    let nameLen := (← index pkt off).toNat
    let off := off + 1
    if pkt.length < off + nameLen + 2 then throw "short domain SOCKS5 UDP packet address"
    let off := off + nameLen
    let _port := u16FromBeBytes (← index pkt off) (← index pkt (off + 1))
    return (fallbackSrc, off + 2)
  else
    let hex := String.ofList (Nat.toDigits 16 atyp.toNat)
    throw s!"invalid SOCKS5 UDP address type: 0x{hex}"

open Checked in
/-- `parse_socks5_udp_packet_with_fallback_src`. -/
def parseSocks5UdpPacketWithFallbackSrc (pkt : Bytes) (fallbackSrc : SocketAddr) :
    Checked (SocketAddr × Bytes) := do
  if pkt.length < 4 then throw "SOCKS5 UDP packet too short"
  if (← index pkt 0) ≠ 0x00 ∨ (← index pkt 1) ≠ 0x00 then
    throw "invalid SOCKS5 UDP reserved fields"
  if (← index pkt 2) ≠ 0x00 then throw "fragmented SOCKS5 UDP not supported"
  let atyp ← index pkt 3
  let (src, off) ← parseSocks5UdpSrc pkt atyp fallbackSrc
  return (src, ← range pkt off pkt.length)

/-! ### Ports -/

theorem u16FromBeBytes_toBeBytes (n : UInt16) :
    u16FromBeBytes (n >>> 8).toUInt8 n.toUInt8 = n := by
  have hlt := n.toNat_lt
  apply UInt16.toNat_inj.mp
  simp [u16FromBeBytes, Nat.shiftRight_eq_div_pow]
  omega

theorem u16ToBeBytes_fromBeBytes (hi lo : UInt8) :
    u16ToBeBytes (u16FromBeBytes hi lo) = [hi, lo] := by
  have hhi := hi.toNat_lt
  have hlo := lo.toNat_lt
  have hhigh : (u16FromBeBytes hi lo >>> 8).toUInt8 = hi := by
    apply UInt8.toNat_inj.mp
    simp [u16FromBeBytes, Nat.shiftRight_eq_div_pow]
    omega
  have hlow : (u16FromBeBytes hi lo).toUInt8 = lo := by
    apply UInt8.toNat_inj.mp
    simp only [u16FromBeBytes, UInt16.toNat_toUInt8, UInt16.toNat_ofNat']
    omega
  rw [u16ToBeBytes, hhigh, hlow]

theorem Ipv6Addr.ofOctets_octets (ip : Ipv6Addr) : Ipv6Addr.ofOctets ip.octets = ip := by
  obtain ⟨octets, hlength⟩ := ip
  simp [Ipv6Addr.ofOctets, hlength, List.take_of_length_le hlength.le]

/-! ### The address -/

variable {pkt data : Bytes} {fallbackSrc src : SocketAddr} {hi lo : UInt8}

theorem parseSocks5UdpSrc_v4 (a b c d : UInt8)
    (h : Remaining pkt 4 (a :: b :: c :: d :: hi :: lo :: data)) :
    parseSocks5UdpSrc pkt 0x01 fallbackSrc =
      pure (.v4 ⟨a, b, c, d⟩ (u16FromBeBytes hi lo), 10) := by
  have hlength := h.length_eq
  simp only [List.length_cons] at hlength
  have hb := h.advance_cons
  have hc := hb.advance_cons
  have hd := hc.advance_cons
  have hhi := hd.advance_cons
  have hlo := hhi.advance_cons
  simp only [parseSocks5UdpSrc, Checked.index_eq h.getElem?_head, Checked.index_eq hb.getElem?_head,
    Checked.index_eq hc.getElem?_head, Checked.index_eq hd.getElem?_head,
    Checked.index_eq hhi.getElem?_head, Checked.index_eq hlo.getElem?_head, pure_bind, if_true]
  rw [if_neg (by omega)]

theorem parseSocks5UdpSrc_v6 {octets : Bytes} (hoctets : octets.length = 16)
    (h : Remaining pkt 4 (octets ++ hi :: lo :: data)) :
    parseSocks5UdpSrc pkt 0x04 fallbackSrc =
      pure (.v6 (.ofOctets octets) (u16FromBeBytes hi lo) 0 0, 22) := by
  have hlength := h.length_eq
  simp only [List.length_append, List.length_cons] at hlength
  have hslice := h.slice_self
  have hhi := h.advance
  rw [hoctets] at hslice hhi
  have hlo := hhi.advance_cons
  have htypes : ((0x04 : UInt8) = 0x01) = False := by decide
  simp only [parseSocks5UdpSrc, htypes, if_false, if_true]
  rw [if_neg (by omega), Checked.range_eq (by omega) (by omega), hslice]
  simp only [pure_bind, Checked.index_eq hhi.getElem?_head, Checked.index_eq hlo.getElem?_head]

theorem parseSocks5UdpSrc_domain {len : UInt8} {name : Bytes} (hname : len.toNat = name.length)
    (h : Remaining pkt 4 (len :: (name ++ hi :: lo :: data))) :
    parseSocks5UdpSrc pkt 0x03 fallbackSrc = pure (fallbackSrc, 5 + name.length + 2) := by
  have hlength := h.length_eq
  simp only [List.length_append, List.length_cons] at hlength
  have hhi := h.advance_cons.advance
  have hlo := hhi.advance_cons
  have htypes : ((0x03 : UInt8) = 0x01) = False ∧ ((0x03 : UInt8) = 0x04) = False := by decide
  simp only [parseSocks5UdpSrc, htypes.1, htypes.2, if_false, if_true]
  rw [if_neg (by omega), Checked.index_eq h.getElem?_head]
  simp only [pure_bind, hname]
  rw [if_neg (by omega), Checked.index_eq hhi.getElem?_head, Checked.index_eq hlo.getElem?_head]
  rfl

/-- The address of every packet: an error, or one of the three forms. -/
theorem parseSocks5UdpSrc_cases (pkt : Bytes) (atyp : UInt8) (fallbackSrc : SocketAddr) :
    (∃ message, parseSocks5UdpSrc pkt atyp fallbackSrc = throw message) ∨
    (atyp = 0x01 ∧ ∃ a b c d hi lo data,
      Remaining pkt 4 (a :: b :: c :: d :: hi :: lo :: data)) ∨
    (atyp = 0x04 ∧ ∃ octets hi lo data, octets.length = 16 ∧
      Remaining pkt 4 (octets ++ hi :: lo :: data)) ∨
    (atyp = 0x03 ∧ ∃ len name hi lo data, len.toNat = name.length ∧
      Remaining pkt 4 (len :: (name ++ hi :: lo :: data))) := by
  by_cases h1 : atyp = 0x01
  · by_cases hlength : pkt.length < 4 + 4 + 2
    · refine .inl ⟨"short IPv4 SOCKS5 UDP packet", ?_⟩
      simp only [parseSocks5UdpSrc, if_pos h1, if_pos hlength]
      rfl
    · obtain ⟨s, data, hs, h⟩ := Remaining.exists_append (show 4 + 6 ≤ pkt.length by omega)
      match s, hs with
      | [a, b, c, d, hi, lo], _ => exact .inr (.inl ⟨h1, a, b, c, d, hi, lo, data, h⟩)
  by_cases h4 : atyp = 0x04
  · by_cases hlength : pkt.length < 4 + 16 + 2
    · refine .inl ⟨"short IPv6 SOCKS5 UDP packet", ?_⟩
      simp only [parseSocks5UdpSrc, if_neg h1, if_pos h4, if_pos hlength]
      rfl
    · obtain ⟨octets, t, hoctets, h⟩ :=
        Remaining.exists_append (show 4 + 16 ≤ pkt.length by omega)
      obtain ⟨s, data, hs, hport⟩ :=
        Remaining.exists_append (show 4 + octets.length + 2 ≤ pkt.length by omega)
      obtain rfl := h.advance.unique hport
      match s, hs with
      | [hi, lo], _ => exact .inr (.inr (.inl ⟨h4, octets, hi, lo, data, hoctets, h⟩))
  by_cases h3 : atyp = 0x03
  · by_cases hlength : pkt.length < 4 + 1
    · refine .inl ⟨"short domain SOCKS5 UDP packet", ?_⟩
      simp only [parseSocks5UdpSrc, if_neg h1, if_neg h4, if_pos h3, if_pos hlength]
      rfl
    obtain ⟨len, t, hlen⟩ := Remaining.exists_cons (show 4 < pkt.length by omega)
    by_cases hname : pkt.length < 4 + 1 + len.toNat + 2
    · refine .inl ⟨"short domain SOCKS5 UDP packet address", ?_⟩
      simp only [parseSocks5UdpSrc, if_neg h1, if_neg h4, if_pos h3, if_neg hlength,
        Checked.index_eq hlen.getElem?_head, pure_bind, if_pos hname]
      rfl
    · obtain ⟨name, u, hnameLen, h⟩ :=
        Remaining.exists_append (show 4 + 1 + len.toNat ≤ pkt.length by omega)
      obtain rfl := hlen.advance_cons.unique h
      obtain ⟨s, data, hs, hport⟩ :=
        Remaining.exists_append (show 4 + 1 + name.length + 2 ≤ pkt.length by omega)
      obtain rfl := h.advance.unique hport
      match s, hs with
      | [hi, lo], _ =>
        exact .inr (.inr (.inr ⟨h3, len, name, hi, lo, data, hnameLen.symm, hlen⟩))
  · left
    simp only [parseSocks5UdpSrc, if_neg h1, if_neg h4, if_neg h3]
    exact ⟨_, rfl⟩

/-! ### The packet -/

/-- A packet with an empty fragment field: its address, then its payload. -/
theorem parse_of_src {atyp : UInt8} {rest : Bytes} {off : ℕ}
    (hheader : Remaining pkt 0 (0x00 :: 0x00 :: 0x00 :: atyp :: rest))
    (hsrc : parseSocks5UdpSrc pkt atyp fallbackSrc = pure (src, off))
    (hdata : Remaining pkt off data) :
    parseSocks5UdpPacketWithFallbackSrc pkt fallbackSrc = pure (src, data) := by
  have hlength := hheader.length_eq
  simp only [List.length_cons] at hlength
  have h1 := hheader.advance_cons
  have h2 := h1.advance_cons
  have h3 := h2.advance_cons
  have hrange : Checked.range pkt off pkt.length = pure data := by
    rw [Checked.range_eq hdata.le le_rfl, slice, hdata.eq, List.take_of_length_le]
    rw [← hdata.eq, List.length_drop]
  unfold parseSocks5UdpPacketWithFallbackSrc
  rw [if_neg (by omega)]
  simp only [Checked.index_eq hheader.getElem?_head, Checked.index_eq h1.getElem?_head,
    Checked.index_eq h2.getElem?_head, Checked.index_eq h3.getElem?_head, pure_bind, ne_eq,
    not_true, or_self, if_false, hsrc, hrange]

/-- Every packet: an error, or a header in front of an address. -/
theorem parse_header_cases (pkt : Bytes) (fallbackSrc : SocketAddr) :
    (∃ message, parseSocks5UdpPacketWithFallbackSrc pkt fallbackSrc = throw message) ∨
    ∃ atyp rest, Remaining pkt 0 (0x00 :: 0x00 :: 0x00 :: atyp :: rest) ∧
      ∀ message, parseSocks5UdpSrc pkt atyp fallbackSrc = throw message →
        parseSocks5UdpPacketWithFallbackSrc pkt fallbackSrc = throw message := by
  unfold parseSocks5UdpPacketWithFallbackSrc
  by_cases hlength : pkt.length < 4
  · rw [if_pos hlength]
    exact .inl ⟨_, rfl⟩
  rw [if_neg hlength]
  obtain ⟨s, rest, hs, h⟩ := Remaining.exists_append (show 0 + 4 ≤ pkt.length by omega)
  match s, hs with
  | [r0, r1, frag, atyp], _ =>
    have h1 := h.advance_cons
    have h2 := h1.advance_cons
    have h3 := h2.advance_cons
    simp only [Checked.index_eq h.getElem?_head, Checked.index_eq h1.getElem?_head,
      Checked.index_eq h2.getElem?_head, Checked.index_eq h3.getElem?_head, pure_bind]
    by_cases hreserved : r0 ≠ 0x00 ∨ r1 ≠ 0x00
    · rw [if_pos hreserved]
      exact .inl ⟨_, rfl⟩
    rw [if_neg hreserved]
    by_cases hfrag : frag ≠ 0x00
    · rw [if_pos hfrag]
      exact .inl ⟨_, rfl⟩
    rw [if_neg hfrag]
    obtain ⟨rfl, rfl⟩ : r0 = 0x00 ∧ r1 = 0x00 := by
      rw [not_or, not_not, not_not] at hreserved
      exact hreserved
    obtain rfl : frag = 0x00 := not_not.mp hfrag
    refine .inr ⟨atyp, rest, h, fun message hsrc => ?_⟩
    rw [hsrc]
    rfl

theorem parse_v4 (a b c d : UInt8)
    (h : pkt = 0x00 :: 0x00 :: 0x00 :: 0x01 :: a :: b :: c :: d :: hi :: lo :: data) :
    parseSocks5UdpPacketWithFallbackSrc pkt fallbackSrc =
      pure (.v4 ⟨a, b, c, d⟩ (u16FromBeBytes hi lo), data) := by
  have hheader : Remaining pkt 0 _ := ⟨Nat.zero_le _, h⟩
  have haddr := hheader.advance_cons.advance_cons.advance_cons.advance_cons
  refine parse_of_src hheader (parseSocks5UdpSrc_v4 a b c d haddr) ?_
  exact haddr.advance (s := [a, b, c, d, hi, lo])

theorem parse_v6 {octets : Bytes} (hoctets : octets.length = 16)
    (h : pkt = 0x00 :: 0x00 :: 0x00 :: 0x04 :: (octets ++ hi :: lo :: data)) :
    parseSocks5UdpPacketWithFallbackSrc pkt fallbackSrc =
      pure (.v6 (.ofOctets octets) (u16FromBeBytes hi lo) 0 0, data) := by
  have hheader : Remaining pkt 0 _ := ⟨Nat.zero_le _, h⟩
  have haddr := hheader.advance_cons.advance_cons.advance_cons.advance_cons
  have hdata := haddr.advance.advance_cons.advance_cons
  rw [hoctets] at hdata
  exact parse_of_src hheader (parseSocks5UdpSrc_v6 hoctets haddr) hdata

theorem parse_domain {len : UInt8} {name : Bytes} (hname : len.toNat = name.length)
    (h : pkt = 0x00 :: 0x00 :: 0x00 :: 0x03 :: len :: (name ++ hi :: lo :: data)) :
    parseSocks5UdpPacketWithFallbackSrc pkt fallbackSrc = pure (fallbackSrc, data) := by
  have hheader : Remaining pkt 0 _ := ⟨Nat.zero_le _, h⟩
  have haddr := hheader.advance_cons.advance_cons.advance_cons.advance_cons
  have hdata := haddr.advance_cons.advance.advance_cons.advance_cons
  exact parse_of_src hheader (parseSocks5UdpSrc_domain hname haddr) hdata

/-- **Every packet.** The parser returns an error, or the packet has one of the three forms. -/
theorem parse_cases (pkt : Bytes) (fallbackSrc : SocketAddr) :
    (∃ message, parseSocks5UdpPacketWithFallbackSrc pkt fallbackSrc = throw message) ∨
    (∃ a b c d hi lo data,
      pkt = 0x00 :: 0x00 :: 0x00 :: 0x01 :: a :: b :: c :: d :: hi :: lo :: data) ∨
    (∃ octets hi lo data, octets.length = 16 ∧
      pkt = 0x00 :: 0x00 :: 0x00 :: 0x04 :: (octets ++ hi :: lo :: data)) ∨
    ∃ len name hi lo data, len.toNat = name.length ∧
      pkt = 0x00 :: 0x00 :: 0x00 :: 0x03 :: len :: (name ++ hi :: lo :: data) := by
  obtain herror | ⟨atyp, rest, hheader, hsrc⟩ := parse_header_cases pkt fallbackSrc
  · exact .inl herror
  have hpkt : pkt = 0x00 :: 0x00 :: 0x00 :: atyp :: rest := hheader.eq
  have hrest := hheader.advance_cons.advance_cons.advance_cons.advance_cons
  obtain ⟨message, hmessage⟩ | ⟨rfl, a, b, c, d, hi, lo, data, h⟩ |
    ⟨rfl, octets, hi, lo, data, hoctets, h⟩ | ⟨rfl, len, name, hi, lo, data, hname, h⟩ :=
    parseSocks5UdpSrc_cases pkt atyp fallbackSrc
  · exact .inl ⟨message, hsrc message hmessage⟩
  · obtain rfl := hrest.unique h
    exact .inr (.inl ⟨a, b, c, d, hi, lo, data, hpkt⟩)
  · obtain rfl := hrest.unique h
    exact .inr (.inr (.inl ⟨octets, hi, lo, data, hoctets, hpkt⟩))
  · obtain rfl := hrest.unique h
    exact .inr (.inr (.inr ⟨len, name, hi, lo, data, hname, hpkt⟩))

/-! ### Round trips -/

/-- The address without the IPv6 flow label and scope id, which the packet does not carry. -/
def SocketAddr.withoutScope : SocketAddr → SocketAddr
  | v4 ip port => v4 ip port
  | v6 ip port _ _ => v6 ip port 0 0

theorem parse_build_ip (addr : SocketAddr) (payload : Bytes) (fallbackSrc : SocketAddr) :
    parseSocks5UdpPacketWithFallbackSrc (socks5UdpIpHeader addr ++ payload) fallbackSrc =
      pure (addr.withoutScope, payload) := by
  cases addr with
  | v4 ip port =>
    have hpkt : socks5UdpIpHeader (.v4 ip port) ++ payload =
        0x00 :: 0x00 :: 0x00 :: 0x01 :: ip.a :: ip.b :: ip.c :: ip.d ::
          (port >>> 8).toUInt8 :: port.toUInt8 :: payload := rfl
    rw [parse_v4 ip.a ip.b ip.c ip.d hpkt, u16FromBeBytes_toBeBytes]
    rfl
  | v6 ip port flowinfo scopeId =>
    have hpkt : socks5UdpIpHeader (.v6 ip port flowinfo scopeId) ++ payload =
        (0x00 : UInt8) :: 0x00 :: 0x00 :: 0x04 ::
          (ip.octets ++ (port >>> 8).toUInt8 :: port.toUInt8 :: payload) := by
      simp [socks5UdpIpHeader, u16ToBeBytes]
    rw [parse_v6 ip.length_octets hpkt, u16FromBeBytes_toBeBytes, Ipv6Addr.ofOctets_octets]
    rfl

theorem parse_build_domain {host : Str} (hne : host ≠ []) (hle : host.length ≤ 255) (port : UInt16)
    (payload : Bytes) (fallbackSrc : SocketAddr) :
    ∃ pkt, buildSocks5UdpPacket (.domain host port) payload = .ok pkt ∧
      parseSocks5UdpPacketWithFallbackSrc pkt fallbackSrc = pure (fallbackSrc, payload) := by
  have hcheck : ¬(host.isEmpty || decide (255 < host.length)) = true := by
    simp [hne, hle]
  have hlen : (UInt8.ofNat host.length).toNat = host.length := by
    rw [UInt8.toNat_ofNat']
    omega
  have hpkt : ([0x00, 0x00, 0x00] ++ [0x03] ++ [UInt8.ofNat host.length] ++ host ++
      u16ToBeBytes port ++ payload : Bytes) =
      0x00 :: 0x00 :: 0x00 :: 0x03 :: UInt8.ofNat host.length ::
        (host ++ (port >>> 8).toUInt8 :: port.toUInt8 :: payload) := by
    simp [u16ToBeBytes]
  exact ⟨_, if_neg hcheck, parse_domain hlen hpkt⟩

theorem build_of_parse (hatyp : pkt[3]? = some 0x01 ∨ pkt[3]? = some 0x04)
    (h : parseSocks5UdpPacketWithFallbackSrc pkt fallbackSrc = pure (src, data)) :
    buildSocks5UdpPacket (.ip src) data = .ok pkt := by
  obtain ⟨message, hmessage⟩ | ⟨a, b, c, d, hi, lo, data', rfl⟩ |
    ⟨octets, hi, lo, data', hoctets, rfl⟩ | ⟨len, name, hi, lo, data', hname, rfl⟩ :=
    parse_cases pkt fallbackSrc
  · rw [hmessage] at h
    cases h
  · rw [parse_v4 a b c d rfl] at h
    cases h
    rw [buildSocks5UdpPacket_ip, socks5UdpIpHeader, u16ToBeBytes_fromBeBytes]
    rfl
  · rw [parse_v6 hoctets rfl] at h
    cases h
    rw [buildSocks5UdpPacket_ip, socks5UdpIpHeader, u16ToBeBytes_fromBeBytes]
    simp [Ipv6Addr.ofOctets, hoctets, List.take_of_length_le hoctets.le]
  · simp at hatyp

/-- A payload stands at the end of its packet. -/
theorem parse_suffix (pkt : Bytes) (fallbackSrc : SocketAddr) :
    (∃ message, parseSocks5UdpPacketWithFallbackSrc pkt fallbackSrc = throw message) ∨
    ∃ src data, parseSocks5UdpPacketWithFallbackSrc pkt fallbackSrc = pure (src, data) ∧
      data <:+ pkt := by
  obtain herror | ⟨a, b, c, d, hi, lo, data, rfl⟩ | ⟨octets, hi, lo, data, hoctets, rfl⟩ |
    ⟨len, name, hi, lo, data, hname, rfl⟩ := parse_cases pkt fallbackSrc
  · exact .inl herror
  · exact .inr ⟨_, data, parse_v4 a b c d rfl, [_, _, _, _, a, b, c, d, hi, lo], rfl⟩
  · exact .inr ⟨_, data, parse_v6 hoctets rfl, [0x00, 0x00, 0x00, 0x04] ++ octets ++ [hi, lo],
      by simp⟩
  · exact .inr ⟨_, data, parse_domain hname rfl, [0x00, 0x00, 0x00, 0x03, len] ++ name ++ [hi, lo],
      by simp⟩

/-- **Encapsulation.** Packets that were built are parsed, up to what they do not carry; packets
with an IP address that were parsed are built again; and the parser never reads out of bounds,
whatever the packet. -/
theorem socks5_udp_round_trip (fallbackSrc : SocketAddr) :
    (∀ addr payload, ∃ pkt, buildSocks5UdpPacket (.ip addr) payload = .ok pkt ∧
      parseSocks5UdpPacketWithFallbackSrc pkt fallbackSrc = pure (addr.withoutScope, payload)) ∧
    (∀ host port payload, 1 ≤ host.length ∧ host.length ≤ 255 →
      ∃ pkt, buildSocks5UdpPacket (.domain host port) payload = .ok pkt ∧
        parseSocks5UdpPacketWithFallbackSrc pkt fallbackSrc = pure (fallbackSrc, payload)) ∧
    (∀ pkt src data, pkt[3]? = some 0x01 ∨ pkt[3]? = some 0x04 →
      parseSocks5UdpPacketWithFallbackSrc pkt fallbackSrc = pure (src, data) →
        buildSocks5UdpPacket (.ip src) data = .ok pkt) ∧
    ∀ pkt, (∃ message, parseSocks5UdpPacketWithFallbackSrc pkt fallbackSrc = throw message) ∨
      ∃ src data, parseSocks5UdpPacketWithFallbackSrc pkt fallbackSrc = pure (src, data) ∧
        data <:+ pkt := by
  refine ⟨fun addr payload => ?_, fun host port payload hhost => ?_, fun pkt src data => ?_,
    fun pkt => parse_suffix pkt fallbackSrc⟩
  · exact ⟨_, buildSocks5UdpPacket_ip addr payload, parse_build_ip addr payload fallbackSrc⟩
  · exact parse_build_domain (List.length_pos_iff.mp hhost.1) hhost.2 port payload fallbackSrc
  · exact build_of_parse

end XtpRs
