import XtpRs.Net.Addr

/-!
# Addresses in text

Reading addresses from configuration text, as `FromStr` of `std::net` does: decimal octets without
leading zeros for IPv4, groups of up to four hexadecimal digits with one `::` and an optional
trailing IPv4 part for IPv6, a decimal port after the last colon of a socket address. A reader
consumes a part of the text or fails without consuming anything; a parser reads the whole text.

The `IpNet` parser of the `ipnet` package is a parameter of what uses it.

## Main definitions

* `parseIpAddr`, `parseSocketAddr`.
* `parseIpOrCidr`: `parse_ip_or_cidr` of `src/util.rs`.
* `trim`: `str::trim`.
-/

namespace XtpRs

/-- A reader: the value read and the rest of the text. -/
abbrev TextReader (α : Type) := Str → Option (α × Str)

/-- `char::to_digit`. -/
def toDigit (radix : ℕ) (b : UInt8) : Option ℕ :=
  let digit :=
    if 0x30 ≤ b ∧ b ≤ 0x39 then some (b.toNat - 0x30)
    else if 0x61 ≤ b ∧ b ≤ 0x7a then some (b.toNat - 0x61 + 10)
    else if 0x41 ≤ b ∧ b ≤ 0x5a then some (b.toNat - 0x41 + 10)
    else none
  digit.filter (· < radix)

/-- `Parser::read_given_char`. -/
def readGivenChar (c : UInt8) : TextReader Unit
  | b :: rest => if b = c then some ((), rest) else none
  | [] => none

/-- `Parser::read_number`: a run of digits whose value is below `bound`. -/
def readNumber (radix : ℕ) (maxDigits : Option ℕ) (allowZeroPrefix : Bool) (bound : ℕ) :
    TextReader ℕ := fun s =>
  let digits := s.takeWhile fun b => (toDigit radix b).isSome
  let value := digits.foldl (fun acc b => acc * radix + (toDigit radix b).getD 0) 0
  if digits.isEmpty || maxDigits.any (· < digits.length) then none
  else if !allowZeroPrefix && s.head? == some 0x30 && decide (1 < digits.length) then none
  else if bound ≤ value then none
  else some (value, s.drop digits.length)

/-- `Parser::read_separator`: a separator stands before every part but the first. -/
def readSeparator {α : Type} (sep : UInt8) (index : ℕ) (inner : TextReader α) : TextReader α :=
  fun s => if index = 0 then inner s else (readGivenChar sep s).bind fun r => inner r.2

/-- `Parser::read_ipv4_addr`. -/
def readIpv4Addr : TextReader Ipv4Addr := fun s => do
  let octet := readNumber 10 (some 3) false 256
  let (a, s) ← readSeparator 0x2e 0 octet s
  let (b, s) ← readSeparator 0x2e 1 octet s
  let (c, s) ← readSeparator 0x2e 2 octet s
  let (d, s) ← readSeparator 0x2e 3 octet s
  return (⟨UInt8.ofNat a, UInt8.ofNat b, UInt8.ofNat c, UInt8.ofNat d⟩, s)

/-- The groups read, whether the last two are an embedded IPv4 address, and the rest of the
text. -/
abbrev Groups := List UInt16 × Bool × Str

/-- `read_groups` of `Parser::read_ipv6_addr`, with room for `room` more groups. An embedded IPv4
address needs room for two. -/
def readGroups : ℕ → List UInt16 → Str → Groups
  | 0, groups, s => (groups, false, s)
  | room + 1, groups, s =>
    let ipv4 := if room = 0 then none else readSeparator 0x3a groups.length readIpv4Addr s
    match ipv4 with
    | some (ip, rest) =>
      (groups ++ [UInt16.ofNat (ip.a.toNat * 256 + ip.b.toNat),
        UInt16.ofNat (ip.c.toNat * 256 + ip.d.toNat)], true, rest)
    | none =>
      match readSeparator 0x3a groups.length (readNumber 16 (some 4) true 0x10000) s with
      | some (group, rest) => readGroups room (groups ++ [UInt16.ofNat group]) rest
      | none => (groups, false, s)

/-- The address with the given segments; missing ones are zero. -/
def Ipv6Addr.ofSegments (s : List UInt16) : Ipv6Addr :=
  .new (s.getD 0 0) (s.getD 1 0) (s.getD 2 0) (s.getD 3 0) (s.getD 4 0) (s.getD 5 0) (s.getD 6 0)
    (s.getD 7 0)

/-- `Parser::read_ipv6_addr`. -/
def readIpv6Addr : TextReader Ipv6Addr := fun s =>
  let (head, headIpv4, s) := readGroups 8 [] s
  if head.length = 8 then some (.ofSegments head, s)
  -- an IPv4 part is not allowed before `::`
  else if headIpv4 then none
  else do
    let ((), s) ← readGivenChar 0x3a s
    let ((), s) ← readGivenChar 0x3a s
    let (tail, _, s) := readGroups (8 - (head.length + 1)) [] s
    return (.ofSegments (head ++ List.replicate (8 - head.length - tail.length) 0 ++ tail), s)

/-- `Parser::read_port`. -/
def readPort : TextReader UInt16 := fun s => do
  let ((), s) ← readGivenChar 0x3a s
  let (port, s) ← readNumber 10 none true 0x10000 s
  return (UInt16.ofNat port, s)

/-- `Parser::read_scope_id`. -/
def readScopeId : TextReader UInt32 := fun s => do
  let ((), s) ← readGivenChar 0x25 s
  let (scope, s) ← readNumber 10 none true 0x100000000 s
  return (UInt32.ofNat scope, s)

/-- `Parser::read_socket_addr_v4`. -/
def readSocketAddrV4 : TextReader SocketAddr := fun s => do
  let (ip, s) ← readIpv4Addr s
  let (port, s) ← readPort s
  return (.v4 ip port, s)

/-- `Parser::read_socket_addr_v6`. -/
def readSocketAddrV6 : TextReader SocketAddr := fun s => do
  let ((), s) ← readGivenChar 0x5b s
  let (ip, s) ← readIpv6Addr s
  let (scopeId, s) := (readScopeId s).getD (0, s)
  let ((), s) ← readGivenChar 0x5d s
  let (port, s) ← readPort s
  return (.v6 ip port 0 scopeId, s)

/-- `Parser::parse_with`: the reader consumes the whole text. -/
def parseWith {α : Type} (reader : TextReader α) (s : Str) : Option α :=
  match reader s with
  | some (a, []) => some a
  | _ => none

/-- `IpAddr::from_str`. -/
def parseIpAddr : Str → Option IpAddr :=
  parseWith fun s =>
    ((readIpv4Addr s).map fun r => (.v4 r.1, r.2)) <|> (readIpv6Addr s).map fun r => (.v6 r.1, r.2)

/-- `SocketAddr::from_str`. -/
def parseSocketAddr : Str → Option SocketAddr :=
  parseWith fun s => readSocketAddrV4 s <|> readSocketAddrV6 s

/-- `IpNet` of the `ipnet` package. -/
structure IpNet where
  addr : IpAddr
  prefixLen : ℕ
  deriving DecidableEq, Repr

/-- `From<IpAddr> for IpNet`: the network of one host. -/
def IpNet.ofIpAddr : IpAddr → IpNet
  | .v4 ip => ⟨.v4 ip, 32⟩
  | .v6 ip => ⟨.v6 ip, 128⟩

/-- `parse_ip_or_cidr`; `parseIpNet` is `IpNet::from_str`. -/
def parseIpOrCidr (parseIpNet : Str → Option IpNet) (s : Str) : Option IpNet :=
  parseIpNet s <|> (parseIpAddr s).map IpNet.ofIpAddr

/-! ### White space -/

/-- The characters with the property `White_Space`. -/
def whitespaceChars : List Str :=
  [[0x09], [0x0a], [0x0b], [0x0c], [0x0d], [0x20], [0xc2, 0x85], [0xc2, 0xa0],
    [0xe1, 0x9a, 0x80], [0xe2, 0x80, 0x80], [0xe2, 0x80, 0x81], [0xe2, 0x80, 0x82],
    [0xe2, 0x80, 0x83], [0xe2, 0x80, 0x84], [0xe2, 0x80, 0x85], [0xe2, 0x80, 0x86],
    [0xe2, 0x80, 0x87], [0xe2, 0x80, 0x88], [0xe2, 0x80, 0x89], [0xe2, 0x80, 0x8a],
    [0xe2, 0x80, 0xa8], [0xe2, 0x80, 0xa9], [0xe2, 0x80, 0xaf], [0xe2, 0x81, 0x9f],
    [0xe3, 0x80, 0x80]]

/-- Drop characters at the start, at most `fuel` of them. -/
def dropChars (chars : List Str) : ℕ → Str → Str
  | 0, s => s
  | fuel + 1, s =>
    match chars.find? fun c => c.isPrefixOf s with
    | some c => dropChars chars fuel (s.drop c.length)
    | none => s

/-- `str::trim`. -/
def trim (s : Str) : Str :=
  let s := dropChars whitespaceChars s.length s
  (dropChars (whitespaceChars.map List.reverse) s.length s.reverse).reverse

end XtpRs
