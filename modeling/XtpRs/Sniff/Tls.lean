import XtpRs.Lib.Buffer
import XtpRs.Routing.Domain
import XtpRs.Sniff.Udp

/-!
# The server name of a ClientHello

`parse_sni_from_client_hello_body` of `src/sniff/tls_common.rs` walks over the fields of a
ClientHello to its extensions and takes the last valid host name of the `server_name` extensions.
`is_valid_sni_hostname` is in `src/sniff/mod.rs`.

The loops of the source move an offset forward in each round, so the length of what they walk over
bounds the number of rounds.

## Main definitions

* `isValidSniHostname`, `parseSniFromClientHelloBody`.

## Main results

* `parseSniFromClientHelloBody_error`: the errors it can fail with; none of them asks for more data.
-/

namespace XtpRs.Sniff

open Lib Routing

/-- `TlsSniffError`. -/
inductive TlsSniffError
  | peekEmpty
  | insufficientPrefix
  | protocolNotMatched
  | tlsNoSni
  | parseError
  | invalidHostname
  | tooLargeClientHello
  deriving DecidableEq, Repr

/-- `From<TlsSniffError> for UdpSniffError`. -/
def TlsSniffError.toUdp : TlsSniffError → UdpSniffError
  | peekEmpty | insufficientPrefix => .insufficientPrefix
  | protocolNotMatched => .protocolNotMatched
  | tlsNoSni => .noTarget
  | parseError => .parseError
  | invalidHostname => .invalidHostname
  | tooLargeClientHello => .tooLarge

/-- The value of bytes in network order. -/
def beNat (b : Bytes) : ℕ :=
  b.foldl (fun value x => value * 256 + x.toNat) 0

/-- `be_u16`. -/
def beU16 (b : Bytes) : Except TlsSniffError ℕ :=
  if b.length < 2 then .error .parseError else .ok (beNat (b.take 2))

/-- `be_u24`. -/
def beU24 (b : Bytes) : Except TlsSniffError ℕ :=
  if b.length < 3 then .error .parseError else .ok (beNat (b.take 3))

/-! ### Host names -/

/-- `str::from_utf8` accepts the bytes. While a character is read, `pending` counts its bytes still
to come, the next of which lies between `lo` and `hi`. -/
def utf8Loop : ℕ → UInt8 → UInt8 → Bytes → Bool
  | 0, _, _, [] => true
  | _ + 1, _, _, [] => false
  | 0, _, _, b :: rest =>
    if b < 0x80 then utf8Loop 0 0 0 rest
    else if 0xc2 ≤ b ∧ b ≤ 0xdf then utf8Loop 1 0x80 0xbf rest
    else if b = 0xe0 then utf8Loop 2 0xa0 0xbf rest
    else if b = 0xed then utf8Loop 2 0x80 0x9f rest
    else if 0xe1 ≤ b ∧ b ≤ 0xef then utf8Loop 2 0x80 0xbf rest
    else if b = 0xf0 then utf8Loop 3 0x90 0xbf rest
    else if 0xf1 ≤ b ∧ b ≤ 0xf3 then utf8Loop 3 0x80 0xbf rest
    else if b = 0xf4 then utf8Loop 3 0x80 0x8f rest
    else false
  | pending + 1, lo, hi, b :: rest =>
    decide (lo ≤ b ∧ b ≤ hi) && utf8Loop pending 0x80 0xbf rest

/-- `str::from_utf8`. -/
def fromUtf8 (b : Bytes) : Option Str :=
  if utf8Loop 0 0 0 b then some b else none

def isAsciiAlphabetic (b : UInt8) : Bool :=
  decide (0x41 ≤ b ∧ b ≤ 0x5a) || decide (0x61 ≤ b ∧ b ≤ 0x7a)

def isAsciiAlphanumeric (b : UInt8) : Bool :=
  isAsciiAlphabetic b || decide (0x30 ≤ b ∧ b ≤ 0x39)

/-- `str::split` at dots. -/
def splitDots (s : Str) : List Str := s.splitOn dot

/-- The byte `-`. -/
def hyphen : UInt8 := 0x2d

/-- The checks of one label in `is_valid_sni_hostname`. -/
def isValidLabel (label : Str) : Bool :=
  !label.isEmpty && decide (label.length ≤ 63) && label.head? != some hyphen &&
    label.getLast? != some hyphen && label.all fun c => isAsciiAlphanumeric c || c == hyphen

/-- `is_valid_sni_hostname`. -/
def isValidSniHostname (host : Str) : Bool :=
  !host.isEmpty && decide (host.length ≤ 253) && host.getLast? != some dot &&
    (splitDots host).all isValidLabel &&
    (splitDots host).any fun label => label.any isAsciiAlphabetic

/-- `is_filtered_ech_outer_name`: `cloudflare-ech.com`. -/
def isFilteredEchOuterName (host : Str) : Bool :=
  host == [0x63, 0x6c, 0x6f, 0x75, 0x64, 0x66, 0x6c, 0x61, 0x72, 0x65, 0x2d, 0x65, 0x63, 0x68, 0x2e,
    0x63, 0x6f, 0x6d]

/-! ### Extensions -/

/-- The loop over the names of a `server_name` extension, with the host found so far. -/
def serverNameLoop (ext : Bytes) : ℕ → ℕ → Option Str → Except TlsSniffError (ℕ × Option Str)
  | 0, p, found => .ok (p, found)
  | fuel + 1, p, found =>
    if ext.length < p + 3 then .ok (p, found)
    else do
      let nameType := ext.getD p 0
      let nameLen ← beU16 (slice ext (p + 1) (p + 3))
      let p := p + 3
      if ext.length < p + nameLen then .error .parseError
      else if nameType = 0 then
        match fromUtf8 (slice ext p (p + nameLen)) with
        | none => .error .invalidHostname
        | some name =>
          let host := name.map toAsciiLowercase
          if isValidSniHostname host then serverNameLoop ext fuel (p + nameLen) (some host)
          else .error .invalidHostname
      else serverNameLoop ext fuel (p + nameLen) found

/-- A `server_name` extension. -/
def parseServerName (ext : Bytes) (found : Option Str) : Except TlsSniffError (Option Str) :=
  if ext.length < 2 then .error .parseError
  else do
    let listLen ← beU16 (slice ext 0 2)
    if listLen + 2 ≠ ext.length then .error .parseError
    else do
      let (p, found) ← serverNameLoop ext ext.length 2 found
      if p ≠ ext.length then .error .parseError else .ok found

/-- The loop over the extensions, with `saw_ech` and `found_sni` so far. -/
def extensionLoop (body : Bytes) (extEnd : ℕ) :
    ℕ → ℕ → Bool → Option Str → Except TlsSniffError (ℕ × Bool × Option Str)
  | 0, off, sawEch, found => .ok (off, sawEch, found)
  | fuel + 1, off, sawEch, found =>
    if extEnd < off + 4 then .ok (off, sawEch, found)
    else do
      let extType ← beU16 (slice body off (off + 2))
      let extLen ← beU16 (slice body (off + 2) (off + 4))
      let off := off + 4
      if extEnd < off + extLen then .error .parseError
      else if extType = 0xfe0d ∨ extType = 0xff07 then
        extensionLoop body extEnd fuel (off + extLen) true found
      else if extType = 0 then do
        let found ← parseServerName (slice body off (off + extLen)) found
        extensionLoop body extEnd fuel (off + extLen) sawEch found
      else extensionLoop body extEnd fuel (off + extLen) sawEch found

/-- The fields of a ClientHello in front of its extensions: the offset behind them. -/
def skipToExtensions (body : Bytes) : Except TlsSniffError ℕ :=
  if body.length < 2 + 32 + 1 then .error .parseError
  else
    let off := 2 + 32
    let sessionIdLen := (body.getD off 0).toNat
    let off := off + 1
    if body.length < off + sessionIdLen then .error .parseError
    else
      let off := off + sessionIdLen
      if body.length < off + 2 then .error .parseError
      else do
        let cipherSuitesLen ← beU16 (slice body off (off + 2))
        let off := off + 2
        if cipherSuitesLen = 0 ∨ cipherSuitesLen % 2 ≠ 0 ∨ body.length < off + cipherSuitesLen then
          .error .parseError
        else
          let off := off + cipherSuitesLen
          match body[off]? with
          | none => .error .parseError
          | some compressionMethodsLen =>
            let off := off + 1
            if compressionMethodsLen = 0 ∨ body.length < off + compressionMethodsLen.toNat then
              .error .parseError
            else .ok (off + compressionMethodsLen.toNat)

/-- `parse_sni_from_client_hello_body`. -/
def parseSniFromClientHelloBody (body : Bytes) : Except TlsSniffError Str := do
  let off ← skipToExtensions body
  if off = body.length then .error .tlsNoSni
  else if body.length < off + 2 then .error .parseError
  else do
    let extensionsLen ← beU16 (slice body off (off + 2))
    let off := off + 2
    if body.length < off + extensionsLen then .error .parseError
    else do
      let extEnd := off + extensionsLen
      let (off, _, found) ← extensionLoop body extEnd body.length off false none
      if off ≠ extEnd then .error .parseError
      else
        -- the source tells a hidden name from a missing one in its log only
        match found with
        | some host => if isFilteredEchOuterName host then .error .tlsNoSni else .ok host
        | none => .error .tlsNoSni

/-! ### Errors -/

/-- The errors of the ClientHello parser. -/
def TlsSniffError.IsVerdict : TlsSniffError → Prop
  | tlsNoSni | parseError | invalidHostname => True
  | _ => False

/-- A result is a value or one of those errors. -/
def Verdict {α : Type} (r : Except TlsSniffError α) : Prop :=
  ∀ e, r = .error e → e.IsVerdict

theorem Verdict.ok {α : Type} (a : α) : Verdict (.ok a) := by
  intro e h
  cases h

theorem Verdict.error {α : Type} {e : TlsSniffError} (h : e.IsVerdict) :
    Verdict (.error e : Except TlsSniffError α) := by
  intro e' he'
  cases he'
  exact h

theorem Verdict.bind {α β : Type} {r : Except TlsSniffError α} {f : α → Except TlsSniffError β}
    (hr : Verdict r) (hf : ∀ a, Verdict (f a)) : Verdict (r >>= f) := by
  cases r with
  | error e => exact .error (hr e rfl)
  | ok a => exact hf a

theorem Verdict.ite {α : Type} {c : Prop} [Decidable c] {r r' : Except TlsSniffError α}
    (hr : Verdict r) (hr' : Verdict r') : Verdict (if c then r else r') := by
  split_ifs
  · exact hr
  · exact hr'

theorem verdict_beU16 (b : Bytes) : Verdict (beU16 b) :=
  .ite (.error trivial) (.ok _)

theorem verdict_serverNameLoop (ext : Bytes) (fuel p : ℕ) (found : Option Str) :
    Verdict (serverNameLoop ext fuel p found) := by
  induction fuel generalizing p found with
  | zero => exact .ok _
  | succ fuel ih =>
    refine .ite (.ok _) (.bind (verdict_beU16 _) fun nameLen => ?_)
    refine .ite (.error trivial) (.ite ?_ (ih _ _))
    split
    · exact .error trivial
    · exact .ite (ih _ _) (.error trivial)

theorem verdict_parseServerName (ext : Bytes) (found : Option Str) :
    Verdict (parseServerName ext found) := by
  refine .ite (.error trivial) (.bind (verdict_beU16 _) fun listLen => ?_)
  refine .ite (.error trivial) (.bind (verdict_serverNameLoop _ _ _ _) fun r => ?_)
  exact .ite (.error trivial) (.ok _)

theorem verdict_extensionLoop (body : Bytes) (extEnd fuel off : ℕ) (sawEch : Bool)
    (found : Option Str) : Verdict (extensionLoop body extEnd fuel off sawEch found) := by
  induction fuel generalizing off sawEch found with
  | zero => exact .ok _
  | succ fuel ih =>
    refine .ite (.ok _) (.bind (verdict_beU16 _) fun extType => ?_)
    refine .bind (verdict_beU16 _) fun extLen => .ite (.error trivial) (.ite (ih _ _ _) ?_)
    exact .ite (.bind (verdict_parseServerName _ _) fun found => ih _ _ _) (ih _ _ _)

theorem verdict_skipToExtensions (body : Bytes) : Verdict (skipToExtensions body) := by
  refine .ite (.error trivial) (.ite (.error trivial) (.ite (.error trivial) ?_))
  refine .bind (verdict_beU16 _) fun cipherSuitesLen => .ite (.error trivial) ?_
  dsimp only
  split
  · exact .error trivial
  · exact .ite (.error trivial) (.ok _)

/-- **Errors of the ClientHello parser.** It fails with one of three errors, none of which asks for
more data. -/
theorem parseSniFromClientHelloBody_error (body : Bytes) :
    Verdict (parseSniFromClientHelloBody body) := by
  refine .bind (verdict_skipToExtensions body) fun off => .ite (.error trivial) ?_
  refine .ite (.error trivial) (.bind (verdict_beU16 _) fun extensionsLen => ?_)
  refine .ite (.error trivial) (.bind (verdict_extensionLoop _ _ _ _ _ _) fun r => ?_)
  refine .ite (.error trivial) ?_
  split
  · exact .ite (.error trivial) (.ok _)
  · exact .error trivial

end XtpRs.Sniff
