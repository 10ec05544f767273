import XtpRs.Net.Socks5Connect
import XtpRs.Net.Socks5UdpPacket

/-!
# What the SOCKS5 handshake reads

How many bytes the handshake has to skip depends on the replies themselves: on the address type of
the last one, and for a domain on its length byte. `IsHandshake` gives the replies of a server that
accepts, with a bound address of any form. The handshake succeeds exactly on the streams that begin
with such replies, leaves what follows them unread, and fails on every other stream; in which pieces
the stream arrives makes no difference.

## Main definitions

* `BndAddr`, `connectReply`, `IsHandshake`: the replies of a server that accepts.
* `ValidCreds`, `ValidTarget`: credentials and a target that fit in a request.

## Main results

* `parses_socks5Connect`: the language of the handshake.
* `socks5Connect_handshake`: exactly the replies are read.
-/

namespace XtpRs

open Lib OnStream

/-- The address `BND.ADDR` of a reply. -/
inductive BndAddr
  | v4 (ip : Ipv4Addr)
  | v6 (ip : Ipv6Addr)
  | domain (name : Bytes) (length_le : name.length ≤ 255)

/-- The address type and the address. -/
def BndAddr.bytes : BndAddr → Bytes
  | v4 ip => [0x01] ++ ip.octets
  | v6 ip => [0x04] ++ ip.octets
  | domain name _ => [0x03, UInt8.ofNat name.length] ++ name

/-- The replies of a server that accepts the offered method and, if there are any, the
credentials. -/
def authReplies (withCreds : Bool) : Bytes :=
  if withCreds then [0x05, 0x02] ++ [0x01, 0x00] else [0x05, 0x00]

/-- The reply to a CONNECT request that succeeds. -/
def connectReply (addr : BndAddr) (port : UInt16) : Bytes :=
  [0x05, 0x00, 0x00] ++ addr.bytes ++ u16ToBeBytes port

/-- All replies of a server that accepts. -/
def IsHandshake (withCreds : Bool) (replies : Bytes) : Prop :=
  ∃ addr port, replies = authReplies withCreds ++ connectReply addr port

/-- Each of a user name and a password has a length that one byte can hold. -/
def ValidCreds : Option (Str × Str) → Prop
  | none => True
  | some (user, pass) =>
    (1 ≤ user.length ∧ user.length ≤ 255) ∧ 1 ≤ pass.length ∧ pass.length ≤ 255

/-- A domain has a length that one byte can hold. -/
def ValidTarget : Socks5Target → Prop
  | .ip _ => True
  | .domain host _ => 1 ≤ host.length ∧ host.length ≤ 255

/-! ### The operations on the stream -/

theorem parses_writeAll (data : Bytes) :
    Parses ProxyStream.unread (writeAll data) fun _ word => word = [] :=
  .modify _ fun _ => rfl

theorem readExact_apply (n : ℕ) (context : String) (s : ProxyStream) :
    readExact n context s =
      match Pieces.readExact n s.incoming with
      | none => .error context
      | some (data, rest) => .ok (data, { s with incoming := rest }) := by
  change (match Pieces.readExact n s.incoming with
    | none => throw context
    | some (data, rest) => do
      set { s with incoming := rest }
      return data : OnStream Bytes) s = _
  cases Pieces.readExact n s.incoming with
  | none => rfl
  | some r => rfl

theorem parses_readExact (n : ℕ) (context : String) :
    Parses ProxyStream.unread (readExact n context) fun data word =>
      word = data ∧ data.length = n where
  returns := by
    rintro data word rest s ⟨rfl, rfl⟩ hs
    obtain ⟨ps, hread, hrest⟩ := Pieces.readExact_of_flatten s.incoming hs
    exact ⟨{ s with incoming := ps }, by rw [readExact_apply, hread], hrest⟩
  fails := by
    intro s hno
    have hshort : s.unread.length < n := by
      by_contra hle
      have htake : (s.unread.take n).length = n := by
        rw [List.length_take]
        omega
      exact hno _ _ (s.unread.drop n) ⟨rfl, htake⟩ (List.take_append_drop n _).symm
    exact ⟨context, by rw [readExact_apply, Pieces.readExact_eq_none hshort]⟩

/-- A program that goes on only after one certain reply. -/
theorem parses_reply {α : Type} {context : String} {g : Bytes → OnStream α}
    {lang : α → Bytes → Prop} {n : ℕ} (expected : Bytes) (hlength : expected.length = n)
    (haccept : Parses ProxyStream.unread (g expected) lang)
    (hrefuse : ∀ data, data.length = n → data ≠ expected →
      Parses ProxyStream.unread (g data) fun _ _ => False) :
    Parses ProxyStream.unread (readExact n context >>= g) fun a word =>
      ∃ rest, word = expected ++ rest ∧ lang a rest := by
  have hg : ∀ data word, word = data ∧ data.length = n →
      Parses ProxyStream.unread (g data) fun a rest => data = expected ∧ lang a rest := by
    rintro data - ⟨-, hn⟩
    by_cases hdata : data = expected
    · exact (hdata ▸ haccept).congr fun a rest => by simp [hdata]
    · exact (hrefuse data hn hdata).congr fun a rest => by simp [hdata]
  refine ((parses_readExact n context).bind hg).congr fun a word => ?_
  constructor
  · rintro ⟨rest, rfl, hrest⟩
    exact ⟨expected, expected, rest, rfl, ⟨rfl, hlength⟩, rfl, hrest⟩
  · rintro ⟨data, -, rest, rfl, ⟨rfl, -⟩, rfl, hrest⟩
    exact ⟨rest, rfl, hrest⟩

/-- A request before the rest of a program. -/
theorem parses_request {α : Type} {g : OnStream α} {lang : α → Bytes → Prop} (data : Bytes)
    (hg : Parses ProxyStream.unread g lang) :
    Parses ProxyStream.unread (writeAll data >>= fun _ => g) lang := by
  refine ((parses_writeAll data).bind fun _ _ _ => hg).congr fun a word => ?_
  constructor
  · exact fun hword => ⟨(), [], word, rfl, rfl, hword⟩
  · rintro ⟨-, -, rest, rfl, rfl, hrest⟩
    exact hrest

/-! ### Authentication -/

/-- A reply of two bytes other than those expected differs in one of them. -/
theorem getD_ne_of_ne {data : Bytes} {x y : UInt8} (hlength : data.length = 2)
    (hne : data ≠ [x, y]) (hx : data.getD 0 0 = x) : data.getD 1 0 ≠ y := by
  obtain ⟨a, b, rfl⟩ := List.length_eq_two.mp hlength
  rintro rfl
  obtain rfl : a = x := hx
  exact hne rfl

theorem parses_credentials (request : Bytes) :
    Parses ProxyStream.unread
      (do
        writeAll request
        let upResp ← readExact 2 "failed to read SOCKS5 username/password reply"
        if upResp.getD 0 0 ≠ 0x01 ∨ upResp.getD 1 0 ≠ 0x00 then
          throw "SOCKS5 username/password authentication failed")
      fun _ word => word = [0x01, 0x00] := by
  refine (parses_request request (parses_reply [0x01, 0x00] rfl (.pure ()) ?_)).congr ?_
  · intro data hlength hne
    have hrefused : data.getD 0 0 ≠ 0x01 ∨ data.getD 1 0 ≠ 0x00 := by
      by_cases hversion : data.getD 0 0 = 0x01
      · exact .inr (getD_ne_of_ne hlength hne hversion)
      · exact .inl hversion
    rw [if_pos hrefused]
    exact .throw _
  · simp

/-- The language of the part with a user name and a password. -/
theorem parses_socks5PasswordAuth (user pass : Str) :
    Parses ProxyStream.unread (socks5PasswordAuth user pass) fun _ word =>
      ValidCreds (some (user, pass)) ∧ word = authReplies true := by
  have hlengths : ¬(user.isEmpty || 255 < user.length || pass.isEmpty || 255 < pass.length) = true ↔
      ValidCreds (some (user, pass)) := by
    simp [ValidCreds, Nat.one_le_iff_ne_zero]
    tauto
  refine (Parses.guard fun _ => parses_request _
    (parses_reply [0x05, 0x02] rfl (parses_credentials _) ?_)).congr ?_
  · intro data hlength hne
    refine (Parses.guard fun hversion => .ite (fun _ => .throw _) fun _ => ?_).congr (by simp)
    have hmethod := getD_ne_of_ne hlength hne (not_not.mp hversion)
    rw [if_neg hmethod]
    exact .throw _
  · intro a word
    rw [hlengths]
    simp [authReplies]

theorem parses_socks5Auth (creds : Option (Str × Str)) :
    Parses ProxyStream.unread (socks5Auth creds) fun _ word =>
      ValidCreds creds ∧ word = authReplies creds.isSome := by
  cases creds with
  | some creds => exact parses_socks5PasswordAuth creds.1 creds.2
  | none =>
    refine (parses_request _ (parses_reply [0x05, 0x00] rfl (.pure ()) ?_)).congr ?_
    · intro data _ hne
      rw [if_pos hne]
      exact .throw _
    · simp [ValidCreds, authReplies]

/-! ### The reply to the request -/

/-- What `socks5_connect` reads to learn that `n` bytes of the reply are left, by the address
type. -/
def IsReplyRest (atyp : UInt8) (n : ℕ) (word : Bytes) : Prop :=
  (atyp = 0x01 ∧ n = 6 ∧ word = []) ∨ (atyp = 0x04 ∧ n = 18 ∧ word = []) ∨
    atyp = 0x03 ∧ ∃ l : UInt8, n = l.toNat + 2 ∧ word = [l]

theorem parses_socks5ReplyRest (atyp : UInt8) :
    Parses ProxyStream.unread (socks5ReplyRest atyp) (IsReplyRest atyp) := by
  unfold socks5ReplyRest
  by_cases hv4 : atyp = 0x01
  · rw [if_pos hv4]
    exact (Parses.pure 6).congr fun n word => by simp [IsReplyRest, hv4]
  rw [if_neg hv4]
  by_cases hv6 : atyp = 0x04
  · rw [if_pos hv6]
    exact (Parses.pure 18).congr fun n word => by simp [IsReplyRest, hv6]
  rw [if_neg hv6]
  by_cases hdomain : atyp = 0x03
  · rw [if_pos hdomain]
    refine ((parses_readExact 1 _).bind fun l _ _ => .pure _).congr fun n word => ?_
    constructor
    · rintro (⟨h, -⟩ | ⟨h, -⟩ | ⟨-, l, rfl, rfl⟩)
      · exact absurd h hv4
      · exact absurd h hv6
      · exact ⟨[l], [l], [], rfl, ⟨rfl, rfl⟩, rfl, rfl⟩
    · rintro ⟨_, data, _, rfl, ⟨rfl, hlength⟩, rfl, rfl⟩
      obtain ⟨l, hl⟩ := List.length_eq_one_iff.mp hlength
      exact .inr (.inr ⟨hdomain, l, by rw [hl]; rfl, by rw [hl]; rfl⟩)
  · rw [if_neg hdomain]
    exact (Parses.throw _).congr fun n word => by simp [IsReplyRest, hv4, hv6, hdomain]

theorem exists_of_length_eq_four {bytes : Bytes} (h : bytes.length = 4) :
    ∃ a b c d, bytes = [a, b, c, d] := by
  match bytes, h with
  | [a, b, c, d], _ => exact ⟨a, b, c, d, rfl⟩

/-- Two bytes are the port of some address. -/
theorem exists_port {bytes : Bytes} (h : bytes.length = 2) : ∃ port, bytes = u16ToBeBytes port := by
  obtain ⟨hi, lo, rfl⟩ := List.length_eq_two.mp h
  exact ⟨u16FromBeBytes hi lo, (u16ToBeBytes_fromBeBytes hi lo).symm⟩

/-- The last `k + 2` bytes of a reply are an address of `k` bytes and a port. -/
theorem exists_append_port {k : ℕ} {bytes : Bytes} (h : bytes.length = k + 2) :
    ∃ addr port, bytes = addr ++ u16ToBeBytes port ∧ addr.length = k := by
  have hdrop : (bytes.drop k).length = 2 := by rw [List.length_drop]; omega
  obtain ⟨port, hport⟩ := exists_port hdrop
  refine ⟨bytes.take k, port, ?_, by rw [List.length_take]; omega⟩
  rw [← hport, List.take_append_drop]

/-- The bytes behind the first three of a reply that succeeds, as they are read. -/
theorem exists_bndAddr_iff (rest : Bytes) :
    (∃ addr port, rest = BndAddr.bytes addr ++ u16ToBeBytes port) ↔
      ∃ atyp n word skipped, IsReplyRest atyp n word ∧ skipped.length = n ∧
        rest = [atyp] ++ (word ++ skipped) := by
  constructor
  · rintro ⟨addr, port, rfl⟩
    cases addr with
    | v4 ip => exact ⟨_, _, [], ip.octets ++ u16ToBeBytes port, .inl ⟨rfl, rfl, rfl⟩, rfl, rfl⟩
    | v6 ip =>
      refine ⟨_, _, [], ip.octets ++ u16ToBeBytes port, .inr (.inl ⟨rfl, rfl, rfl⟩), ?_, rfl⟩
      rw [List.length_append, ip.length_octets]
      rfl
    | domain name hname =>
      have hlength : (UInt8.ofNat name.length).toNat = name.length :=
        UInt8.toNat_ofNat_of_lt' (Nat.lt_succ_of_le hname)
      refine ⟨_, _, _, name ++ u16ToBeBytes port, .inr (.inr ⟨rfl, _, rfl, rfl⟩), ?_, rfl⟩
      rw [List.length_append, hlength]
      rfl
  · rintro ⟨atyp, n, word, skipped, hrest, hlength, rfl⟩
    obtain ⟨rfl, rfl, rfl⟩ | ⟨rfl, rfl, rfl⟩ | ⟨rfl, l, rfl, rfl⟩ := hrest
    · obtain ⟨octets, port, rfl, hoctets⟩ := exists_append_port (k := 4) hlength
      obtain ⟨a, b, c, d, rfl⟩ := exists_of_length_eq_four hoctets
      exact ⟨.v4 ⟨a, b, c, d⟩, port, rfl⟩
    · obtain ⟨octets, port, rfl, hoctets⟩ := exists_append_port (k := 16) hlength
      exact ⟨.v6 ⟨octets, hoctets⟩, port, rfl⟩
    · obtain ⟨name, port, rfl, hname⟩ := exists_append_port hlength
      have hl := l.toNat_lt
      refine ⟨.domain name (by omega), port, ?_⟩
      rw [BndAddr.bytes, hname, UInt8.ofNat_toNat]
      rfl

/-- The request of `socks5_connect` is for the targets that fit in it. -/
theorem exists_socks5ConnectRequest_iff (target : Socks5Target) :
    (∃ req, socks5ConnectRequest target = .ok req) ↔ ValidTarget target := by
  cases target with
  | ip addr =>
    cases addr with
    | v4 ip port => exact ⟨fun _ => trivial, fun _ => ⟨_, rfl⟩⟩
    | v6 ip port flowinfo scopeId => exact ⟨fun _ => trivial, fun _ => ⟨_, rfl⟩⟩
  | domain host port =>
    have hfits : ¬(host.isEmpty || 255 < host.length) = true ↔ ValidTarget (.domain host port) := by
      simp [ValidTarget, Nat.one_le_iff_ne_zero]
    rw [← hfits, socks5ConnectRequest]
    by_cases h : (host.isEmpty || 255 < host.length) = true
    · rw [if_pos h]
      exact ⟨fun ⟨_, hreq⟩ => (nomatch hreq), fun hno => absurd h hno⟩
    · rw [if_neg h]
      exact ⟨fun _ => h, fun _ => ⟨_, rfl⟩⟩

/-- The language of the handshake: the replies of a server that accepts, if credentials and target
fit in the requests. -/
theorem parses_socks5Connect (target : Socks5Target) (creds : Option (Str × Str)) :
    Parses ProxyStream.unread (socks5Connect target creds) fun _ word =>
      (ValidCreds creds ∧ ValidTarget target) ∧ IsHandshake creds.isSome word := by
  refine ((parses_socks5Auth creds).bind fun _ _ _ => (Parses.lift _).bind fun req _ _ =>
    parses_request req ((parses_readExact 4 _).bind fun resp _ _ =>
      .guard fun _ => .guard fun _ => .guard fun _ =>
        (parses_socks5ReplyRest _).bind fun n _ _ => (parses_readExact n _).bind fun _ _ _ =>
          .pure ())).congr fun a word => ?_
  constructor
  · rintro ⟨⟨hcreds, htarget⟩, addr, port, rfl⟩
    obtain ⟨req, hreq⟩ := (exists_socks5ConnectRequest_iff target).mpr htarget
    obtain ⟨atyp, n, word, skipped, hrest, hlength, heq⟩ :=
      (exists_bndAddr_iff _).mp ⟨addr, port, rfl⟩
    have hconnect : connectReply addr port =
        [0x05, 0x00, 0x00, atyp] ++ (word ++ (skipped ++ [])) := by
      rw [connectReply, List.append_assoc, heq, List.append_nil]
      rfl
    exact ⟨(), _, _, rfl, ⟨hcreds, rfl⟩, req, [], _, rfl, ⟨hreq, rfl⟩, _, _, _, hconnect,
      ⟨rfl, rfl⟩, not_not.mpr rfl, not_not.mpr rfl, not_not.mpr rfl, n, word, _, rfl, hrest,
      skipped, skipped, [], rfl, ⟨rfl, hlength⟩, rfl, rfl⟩
  · rintro ⟨_, _, _, rfl, ⟨hcreds, rfl⟩, req, _, _, rfl, ⟨hreq, rfl⟩, _, resp, _, rfl,
      ⟨rfl, hresp⟩, hversion, hreply, hreserved, n, word, _, rfl, hrest, _, skipped, _, rfl,
      ⟨rfl, hlength⟩, _, rfl⟩
    obtain ⟨v, r, z, atyp, rfl⟩ := exists_of_length_eq_four hresp
    obtain rfl : v = 0x05 := not_not.mp hversion
    obtain rfl : r = 0x00 := not_not.mp hreply
    obtain rfl : z = 0x00 := not_not.mp hreserved
    have htarget := (exists_socks5ConnectRequest_iff target).mp ⟨req, hreq⟩
    obtain ⟨addr, port, heq⟩ :=
      (exists_bndAddr_iff _).mpr ⟨atyp, n, word, skipped, hrest, hlength, rfl⟩
    refine ⟨⟨hcreds, htarget⟩, addr, port, ?_⟩
    rw [connectReply, List.append_assoc, ← heq, List.append_nil]
    rfl

/-- **The handshake reads exactly the replies.** Let the credentials and the target fit in the
requests, and let the server's bytes arrive in any pieces. If they begin with the replies of a
server that accepts, the handshake succeeds and exactly what follows the replies is left unread. If
they do not, it fails. -/
theorem socks5Connect_handshake {target : Socks5Target} {creds : Option (Str × Str)}
    (hcreds : ValidCreds creds) (htarget : ValidTarget target) (pieces : List Bytes) :
    (∀ replies payload, IsHandshake creds.isSome replies → pieces.flatten = replies ++ payload →
      ∃ s, socks5Connect target creds { incoming := pieces } = .ok ((), s) ∧
        s.unread = payload) ∧
    ((∀ replies payload, IsHandshake creds.isSome replies → pieces.flatten ≠ replies ++ payload) →
      ∃ e, socks5Connect target creds { incoming := pieces } = .error e) := by
  have hparses := parses_socks5Connect target creds
  constructor
  · intro replies payload hreplies hpieces
    exact hparses.returns (a := ()) ⟨⟨hcreds, htarget⟩, hreplies⟩ hpieces
  · intro hno
    exact hparses.fails fun _ word rest hword => hno word rest hword.2

/-- A reply with a domain of one byte comes in pieces cut across its parts, and two bytes of payload
behind it; another server refuses the methods. -/
theorem socks5Connect_handshake_domainReply :
    (∃ s, socks5Connect (.domain [0x61] 80) (some ([0x75], [0x70]))
        { incoming := [[0x05], [0x02, 0x01], [0x00, 0x05, 0x00, 0x00, 0x03],
          [0x01, 0x78, 0x00], [0x50, 0xaa], [0xbb]] } = .ok ((), s) ∧ s.unread = [0xaa, 0xbb]) ∧
    ∃ e, socks5Connect (.domain [0x61] 80) (some ([0x75], [0x70]))
        { incoming := [[0x05, 0xff]] } = .error e := by
  have hcreds : ValidCreds (some ([0x75], [0x70])) := ⟨⟨le_rfl, by decide⟩, le_rfl, by decide⟩
  have htarget : ValidTarget (.domain [0x61] 80) := ⟨le_rfl, by decide⟩
  have hhandshake := socks5Connect_handshake hcreds htarget
  constructor
  · exact (hhandshake _).1 _ [0xaa, 0xbb] ⟨.domain [0x78] (by decide), 80, rfl⟩ rfl
  · refine (hhandshake [[0x05, 0xff]]).2 ?_
    rintro _ payload ⟨addr, port, rfl⟩ heq
    simp [authReplies] at heq

end XtpRs
