import XtpRs.Lib.Guarded
import XtpRs.Sniff.ServerName

/-!
# Accesses of the ClientHello parser

`parse_sni_from_client_hello_body` indexes its input where it has checked a length before. Here it
is written once more with every such access checked: outside of the buffer there is no result, and
neither is there one while a loop is still running after its rounds. The guarded parser always has a
result, that of the parser.

## Main definitions

* `parseSniGuarded`.

## Main results

* `agrees_parseSniGuarded`: the guarded parser has the result of the parser.
* `parseSniFromClientHelloBody_eq_ok_iff`: the grammar, and that no access is out of bounds.
-/

namespace XtpRs.Sniff

open Lib Routing Guarded

/-- `be_u16`. -/
def beU16Guarded (b : Bytes) : Guarded TlsSniffError ℕ :=
  if b.length < 2 then throw .parseError
  else do
    let high ← getAt b 0
    let low ← getAt b 1
    pure (beNat [high, low])

/-- The loop over the names of a `server_name` extension. -/
def serverNameLoopGuarded (ext : Bytes) :
    ℕ → ℕ → Option Str → Guarded TlsSniffError (ℕ × Option Str)
  | 0, _, _ => stuck
  | rounds + 1, p, found =>
    if ext.length < p + 3 then pure (p, found)
    else do
      let nameType ← getAt ext p
      let lengthBytes ← sliceAt ext (p + 1) (p + 3)
      let nameLen ← beU16Guarded lengthBytes
      let p := p + 3
      if ext.length < p + nameLen then throw .parseError
      else if nameType = 0 then do
        let raw ← sliceAt ext p (p + nameLen)
        match fromUtf8 raw with
        | none => throw .invalidHostname
        | some name =>
          let host := name.map toAsciiLowercase
          if isValidSniHostname host then serverNameLoopGuarded ext rounds (p + nameLen) (some host)
          else throw .invalidHostname
      else serverNameLoopGuarded ext rounds (p + nameLen) found

/-- A `server_name` extension. -/
def parseServerNameGuarded (ext : Bytes) (found : Option Str) :
    Guarded TlsSniffError (Option Str) :=
  if ext.length < 2 then throw .parseError
  else do
    let lengthBytes ← sliceAt ext 0 2
    let listLen ← beU16Guarded lengthBytes
    if listLen + 2 ≠ ext.length then throw .parseError
    else do
      let (p, found) ← serverNameLoopGuarded ext (ext.length + 1) 2 found
      if p ≠ ext.length then throw .parseError else pure found

/-- The loop over the extensions. -/
def extensionLoopGuarded (body : Bytes) (extEnd : ℕ) :
    ℕ → ℕ → Bool → Option Str → Guarded TlsSniffError (ℕ × Bool × Option Str)
  | 0, _, _, _ => stuck
  | rounds + 1, off, sawEch, found =>
    if extEnd < off + 4 then pure (off, sawEch, found)
    else do
      let typeBytes ← sliceAt body off (off + 2)
      let extType ← beU16Guarded typeBytes
      let lengthBytes ← sliceAt body (off + 2) (off + 4)
      let extLen ← beU16Guarded lengthBytes
      let off := off + 4
      if extEnd < off + extLen then throw .parseError
      else if extType = 0xfe0d ∨ extType = 0xff07 then
        extensionLoopGuarded body extEnd rounds (off + extLen) true found
      else if extType = 0 then do
        let ext ← sliceAt body off (off + extLen)
        let found ← parseServerNameGuarded ext found
        extensionLoopGuarded body extEnd rounds (off + extLen) sawEch found
      else extensionLoopGuarded body extEnd rounds (off + extLen) sawEch found

/-- `parse_sni_from_client_hello_body`. The fields in front of the extensions are read with `get`,
which does not panic. -/
def parseSniGuarded (body : Bytes) : Guarded TlsSniffError Str := do
  let off ← lift (skipToExtensions body)
  if off = body.length then throw .tlsNoSni
  else if body.length < off + 2 then throw .parseError
  else do
    let extensionsLen ← lift (beU16 (slice body off (off + 2)))
    let off := off + 2
    if body.length < off + extensionsLen then throw .parseError
    else do
      let extEnd := off + extensionsLen
      let (off, _, found) ← extensionLoopGuarded body extEnd (body.length + 1) off false none
      if off ≠ extEnd then throw .parseError
      else
        match found with
        | some host => if isFilteredEchOuterName host then throw .tlsNoSni else pure host
        | none => throw .tlsNoSni

/-! ### Agreement -/

theorem agrees_beU16Guarded (b : Bytes) : Agrees (beU16Guarded b) (beU16 b) := by
  refine .ite (fun _ => .error _) fun hlen => ?_
  rcases b with _ | ⟨x, _ | ⟨y, rest⟩⟩
  · exact absurd Nat.two_pos hlen
  · exact absurd Nat.one_lt_two hlen
  · exact .getAt 0 (by simp) (.getAt 0 (by simp) (.ok _))

/-- A loop that has a round for each byte returns. -/
theorem agrees_serverNameLoopGuarded {ext : Bytes} {rounds p : ℕ} (found : Option Str)
    (h : ext.length ≤ p + rounds) :
    Agrees (serverNameLoopGuarded ext (rounds + 1) p found)
      (serverNameLoop ext rounds p found) := by
  induction rounds generalizing p found with
  | zero =>
    rw [serverNameLoopGuarded, if_pos (by omega)]
    exact .ok _
  | succ rounds ih =>
    rw [serverNameLoopGuarded]
    refine .ite (fun _ => .ok _) fun hentry => .getAt 0 (by omega) ?_
    refine .sliceAt (by omega) (by omega) (.bind (agrees_beU16Guarded _) fun nameLen _ => ?_)
    refine .ite (fun _ => .error _) fun hname => .ite (fun _ => ?_) fun _ => ih _ (by omega)
    refine .sliceAt (by omega) (by omega) ?_
    dsimp only
    cases fromUtf8 (slice ext (p + 3) (p + 3 + nameLen)) with
    | none => exact .error _
    | some name => exact .ite (fun _ => ih _ (by omega)) fun _ => .error _

theorem agrees_parseServerNameGuarded (ext : Bytes) (found : Option Str) :
    Agrees (parseServerNameGuarded ext found) (parseServerName ext found) := by
  refine .ite (fun _ => .error _) fun hlen => .sliceAt (by omega) (by omega) ?_
  refine .bind (agrees_beU16Guarded _) fun listLen _ => .ite (fun _ => .error _) fun _ => ?_
  refine .bind (agrees_serverNameLoopGuarded found (by omega)) fun r _ => ?_
  exact .ite (fun _ => .error _) fun _ => .ok _

theorem agrees_extensionLoopGuarded {body : Bytes} {extEnd rounds off : ℕ} (sawEch : Bool)
    (found : Option Str) (hend : extEnd ≤ body.length) (h : extEnd ≤ off + rounds) :
    Agrees (extensionLoopGuarded body extEnd (rounds + 1) off sawEch found)
      (extensionLoop body extEnd rounds off sawEch found) := by
  induction rounds generalizing off sawEch found with
  | zero =>
    rw [extensionLoopGuarded, if_pos (by omega)]
    exact .ok _
  | succ rounds ih =>
    rw [extensionLoopGuarded]
    refine .ite (fun _ => .ok _) fun hfour => .sliceAt (by omega) (by omega) ?_
    refine .bind (agrees_beU16Guarded _) fun extType _ => .sliceAt (by omega) (by omega) ?_
    refine .bind (agrees_beU16Guarded _) fun extLen _ => ?_
    refine .ite (fun _ => .error _) fun hdata => .ite (fun _ => ih _ _ (by omega)) fun _ => ?_
    refine .ite (fun _ => .sliceAt (by omega) (by omega) ?_) fun _ => ih _ _ (by omega)
    exact .bind (agrees_parseServerNameGuarded _ _) fun found _ => ih _ _ (by omega)

/-- The guarded parser has a result, the one of the parser. -/
theorem agrees_parseSniGuarded (body : Bytes) :
    Agrees (parseSniGuarded body) (parseSniFromClientHelloBody body) := by
  refine .bind (.lift _) fun off _ => .ite (fun _ => .error _) fun _ => ?_
  refine .ite (fun _ => .error _) fun _ => .bind (.lift _) fun extensionsLen _ => ?_
  refine .ite (fun _ => .error _) fun hend => ?_
  refine .bind (agrees_extensionLoopGuarded _ _ (by omega) (by omega)) fun r _ => ?_
  refine .ite (fun _ => .error _) fun _ => ?_
  cases r.2.2 with
  | none => exact .error _
  | some host => exact .ite (fun _ => .error _) fun _ => .ok _

/-- **Grammar of a ClientHello.** The parser returns a host exactly on the renderings of a body,
followed by anything, whose host names are all valid, of which the last one in lower case is that
host and not the hidden one; and none of its accesses is out of bounds. -/
theorem parseSniFromClientHelloBody_eq_ok_iff (body : Bytes) :
    (∀ host, parseSniFromClientHelloBody body = .ok host ↔
      ∃ (hello : ClientHelloBody) (trailing : Bytes) (name : Str),
        body = hello.bytes ++ trailing ∧
        (∀ name ∈ hello.hostNames, isValidSniHostname name = true) ∧
        hello.hostNames.getLast? = some name ∧ host = name.map toAsciiLowercase ∧
        isFilteredEchOuterName host = false) ∧
    (parseSniGuarded body).run = some (parseSniFromClientHelloBody body) :=
  ⟨fun _ => parseSni_eq_ok_iff_accepts, agrees_parseSniGuarded body⟩

end XtpRs.Sniff
