import XtpRs.Sniff.ServerNameBounds

/-!
# Sums of the ClientHello parser

`parse_sni_from_client_hello_body` adds lengths that it has read to its offset before it compares
the sum with the length of its input. Here it is written once more with every access and every sum
checked; `stop` is the first number that is no machine word. Where the input leaves room for the
largest length, the checked parser has the result of the parser.

## Main definitions

* `parseSniChecked`.

## Main results

* `agrees_parseSniChecked`: the checked parser has the result of the parser.
-/

namespace XtpRs.Sniff

open Lib Routing Guarded

/-- The loop over the names of a `server_name` extension. -/
def serverNameLoopChecked (stop : ℕ) (ext : Bytes) :
    ℕ → ℕ → Option Str → Guarded TlsSniffError (ℕ × Option Str)
  | 0, _, _ => stuck
  | rounds + 1, p, found => do
    let entry ← sumBelow stop p 3
    if ext.length < entry then pure (p, found)
    else do
      let nameType ← getAt ext p
      let lengthStart ← sumBelow stop p 1
      let lengthBytes ← sliceAt ext lengthStart entry
      let nameLen ← beU16Guarded lengthBytes
      let nameEnd ← sumBelow stop entry nameLen
      if ext.length < nameEnd then throw .parseError
      else if nameType = 0 then do
        let raw ← sliceAt ext entry nameEnd
        match fromUtf8 raw with
        | none => throw .invalidHostname
        | some name =>
          let host := name.map toAsciiLowercase
          if isValidSniHostname host then serverNameLoopChecked stop ext rounds nameEnd (some host)
          else throw .invalidHostname
      else serverNameLoopChecked stop ext rounds nameEnd found

/-- A `server_name` extension. -/
def parseServerNameChecked (stop : ℕ) (ext : Bytes) (found : Option Str) :
    Guarded TlsSniffError (Option Str) :=
  if ext.length < 2 then throw .parseError
  else do
    let lengthBytes ← sliceAt ext 0 2
    let listLen ← beU16Guarded lengthBytes
    let listEnd ← sumBelow stop listLen 2
    if listEnd ≠ ext.length then throw .parseError
    else do
      let (p, found) ← serverNameLoopChecked stop ext (ext.length + 1) 2 found
      if p ≠ ext.length then throw .parseError else pure found

/-- The loop over the extensions. -/
def extensionLoopChecked (stop : ℕ) (body : Bytes) (extEnd : ℕ) :
    ℕ → ℕ → Bool → Option Str → Guarded TlsSniffError (ℕ × Bool × Option Str)
  | 0, _, _, _ => stuck
  | rounds + 1, off, sawEch, found => do
    let dataStart ← sumBelow stop off 4
    if extEnd < dataStart then pure (off, sawEch, found)
    else do
      let typeEnd ← sumBelow stop off 2
      let typeBytes ← sliceAt body off typeEnd
      let extType ← beU16Guarded typeBytes
      let lengthBytes ← sliceAt body typeEnd dataStart
      let extLen ← beU16Guarded lengthBytes
      let dataEnd ← sumBelow stop dataStart extLen
      if extEnd < dataEnd then throw .parseError
      else if extType = 0xfe0d ∨ extType = 0xff07 then
        extensionLoopChecked stop body extEnd rounds dataEnd true found
      else if extType = 0 then do
        let ext ← sliceAt body dataStart dataEnd
        let found ← parseServerNameChecked stop ext found
        extensionLoopChecked stop body extEnd rounds dataEnd sawEch found
      else extensionLoopChecked stop body extEnd rounds dataEnd sawEch found

/-- The fields of a ClientHello in front of its extensions, which are read with `get`. -/
def skipToExtensionsChecked (stop : ℕ) (body : Bytes) : Guarded TlsSniffError ℕ :=
  if body.length < 2 + 32 + 1 then throw .parseError
  else do
    let off ← sumBelow stop 2 32
    match body[off]? with
    | none => throw .parseError
    | some sessionIdLen => do
      let off ← sumBelow stop off 1
      let off ← sumBelow stop off sessionIdLen.toNat
      if body.length < off then throw .parseError
      else do
        let lengthEnd ← sumBelow stop off 2
        if body.length < lengthEnd then throw .parseError
        else do
          let cipherSuitesLen ← lift (beU16 (slice body off lengthEnd))
          let off ← sumBelow stop lengthEnd cipherSuitesLen
          if cipherSuitesLen = 0 ∨ cipherSuitesLen % 2 ≠ 0 ∨ body.length < off then
            throw .parseError
          else
            match body[off]? with
            | none => throw .parseError
            | some compressionMethodsLen => do
              let off ← sumBelow stop off 1
              let off ← sumBelow stop off compressionMethodsLen.toNat
              if compressionMethodsLen = 0 ∨ body.length < off then throw .parseError
              else pure off

/-- `parse_sni_from_client_hello_body`. -/
def parseSniChecked (stop : ℕ) (body : Bytes) : Guarded TlsSniffError Str := do
  let off ← skipToExtensionsChecked stop body
  if off = body.length then throw .tlsNoSni
  else do
    let lengthEnd ← sumBelow stop off 2
    if body.length < lengthEnd then throw .parseError
    else do
      let extensionsLen ← lift (beU16 (slice body off lengthEnd))
      let extEnd ← sumBelow stop lengthEnd extensionsLen
      if body.length < extEnd then throw .parseError
      else do
        let (off, _, found) ←
          extensionLoopChecked stop body extEnd (body.length + 1) lengthEnd false none
        if off ≠ extEnd then throw .parseError
        else
          match found with
          | some host => if isFilteredEchOuterName host then throw .tlsNoSni else pure host
          | none => throw .tlsNoSni

/-! ### Agreement -/

theorem beU16_lt {b : Bytes} {n : ℕ} (h : beU16 b = .ok n) : n < 2 ^ 16 := by
  unfold beU16 at h
  split_ifs at h with hlen
  obtain rfl := Except.ok.inj h
  have htwo : (b.take 2).length = 2 := by
    rw [List.length_take]
    omega
  exact (beNat_lt _).trans_eq (by rw [htwo]; rfl)

/-- A loop that has a round for each byte returns. -/
theorem agrees_serverNameLoopChecked {stop : ℕ} {ext : Bytes} {rounds p : ℕ} (found : Option Str)
    (hstop : ext.length + 2 ^ 17 ≤ stop) (hp : p ≤ ext.length) (h : ext.length ≤ p + rounds) :
    Agrees (serverNameLoopChecked stop ext (rounds + 1) p found)
      (serverNameLoop ext rounds p found) := by
  induction rounds generalizing p found with
  | zero =>
    refine .sumBelow (by omega) ?_
    rw [if_pos (by omega)]
    exact .ok _
  | succ rounds ih =>
    rw [serverNameLoopChecked]
    refine .sumBelow (by omega) (.ite (fun _ => .ok _) fun hentry => .getAt 0 (by omega) ?_)
    refine .sumBelow (by omega) (.sliceAt (by omega) (by omega) ?_)
    refine .bind (agrees_beU16Guarded _) fun nameLen hnameLen => ?_
    have hlt : nameLen < 2 ^ 16 := beU16_lt hnameLen
    refine .sumBelow (by omega) (.ite (fun _ => .error _) fun hname => ?_)
    refine .ite (fun _ => .sliceAt (by omega) (by omega) ?_) fun _ => ih _ (by omega) (by omega)
    dsimp only
    cases fromUtf8 (slice ext (p + 3) (p + 3 + nameLen)) with
    | none => exact .error _
    | some name => exact .ite (fun _ => ih _ (by omega) (by omega)) fun _ => .error _

theorem agrees_parseServerNameChecked {stop : ℕ} {ext : Bytes} (found : Option Str)
    (hstop : ext.length + 2 ^ 17 ≤ stop) :
    Agrees (parseServerNameChecked stop ext found) (parseServerName ext found) := by
  refine .ite (fun _ => .error _) fun hlen => .sliceAt (by omega) (by omega) ?_
  refine .bind (agrees_beU16Guarded _) fun listLen hlistLen => ?_
  have hlt : listLen < 2 ^ 16 := beU16_lt hlistLen
  refine .sumBelow (by omega) (.ite (fun _ => .error _) fun _ => ?_)
  refine .bind (agrees_serverNameLoopChecked found hstop (by omega) (by omega)) fun r _ => ?_
  exact .ite (fun _ => .error _) fun _ => .ok _

theorem agrees_extensionLoopChecked {stop : ℕ} {body : Bytes} {extEnd rounds off : ℕ}
    (sawEch : Bool) (found : Option Str) (hstop : body.length + 2 ^ 17 ≤ stop)
    (hend : extEnd ≤ body.length) (hoff : off ≤ extEnd) (h : extEnd ≤ off + rounds) :
    Agrees (extensionLoopChecked stop body extEnd (rounds + 1) off sawEch found)
      (extensionLoop body extEnd rounds off sawEch found) := by
  induction rounds generalizing off sawEch found with
  | zero =>
    refine .sumBelow (by omega) ?_
    rw [if_pos (by omega)]
    exact .ok _
  | succ rounds ih =>
    rw [extensionLoopChecked]
    refine .sumBelow (by omega) (.ite (fun _ => .ok _) fun hfour => .sumBelow (by omega) ?_)
    refine .sliceAt (by omega) (by omega) (.bind (agrees_beU16Guarded _) fun extType _ => ?_)
    refine .sliceAt (by omega) (by omega) (.bind (agrees_beU16Guarded _) fun extLen hextLen => ?_)
    have hlt : extLen < 2 ^ 16 := beU16_lt hextLen
    refine .sumBelow (by omega) (.ite (fun _ => .error _) fun hdata => ?_)
    refine .ite (fun _ => ih _ _ (by omega) (by omega)) fun _ => ?_
    refine .ite (fun _ => .sliceAt (by omega) (by omega) ?_) fun _ => ih _ _ (by omega) (by omega)
    refine .bind (agrees_parseServerNameChecked _ ?_) fun found _ => ih _ _ (by omega) (by omega)
    rw [length_slice (by omega)]
    omega

theorem agrees_skipToExtensionsChecked {stop : ℕ} {body : Bytes}
    (hstop : body.length + 2 ^ 17 ≤ stop) :
    Agrees (skipToExtensionsChecked stop body) (skipToExtensions body) := by
  refine .ite (fun _ => .error _) fun hlen => .sumBelow (by omega) ?_
  have hget : body[2 + 32]? = some (body.getD (2 + 32) 0) := by
    rw [List.getD_eq_getElem _ _ (by omega), List.getElem?_eq_getElem]
  rw [hget]
  dsimp only
  have hbyte : ∀ b : UInt8, b.toNat < 2 ^ 8 := fun b => b.toNat_lt
  have hid := hbyte (body.getD (2 + 32) 0)
  refine .sumBelow (by omega) (.sumBelow (by omega) (.ite (fun _ => .error _) fun hsession => ?_))
  refine .sumBelow (by omega) (.ite (fun _ => .error _) fun htwo => ?_)
  refine .bind (.lift _) fun cipherSuitesLen hcipher => ?_
  have hlt : cipherSuitesLen < 2 ^ 16 := beU16_lt hcipher
  refine .sumBelow (by omega) (.ite (fun _ => .error _) fun hsuites => ?_)
  generalize hoff : 2 + 32 + 1 + (body.getD (2 + 32) 0).toNat + 2 + cipherSuitesLen = off at *
  cases body[off]? with
  | none => exact .error _
  | some compressionMethodsLen =>
    have hmethods := hbyte compressionMethodsLen
    refine .sumBelow (by omega) (.sumBelow (by omega) ?_)
    exact .ite (fun _ => .error _) fun _ => .ok _

theorem skipToExtensions_le {body : Bytes} {off : ℕ} (h : skipToExtensions body = .ok off) :
    off ≤ body.length := by
  obtain ⟨sessionId, cipherSuites, hends⟩ := skipToExtensions_eq_ok_iff.mp h
  exact hends.le

/-- **Sums.** The checked parser has the result of the parser, if the longest field that could be
announced leaves the input within the machine words. -/
theorem agrees_parseSniChecked {stop : ℕ} {body : Bytes} (hstop : body.length + 2 ^ 17 ≤ stop) :
    Agrees (parseSniChecked stop body) (parseSniFromClientHelloBody body) := by
  refine .bind (agrees_skipToExtensionsChecked hstop) fun off hskip => ?_
  have hoff : off ≤ body.length := skipToExtensions_le hskip
  refine .ite (fun _ => .error _) fun _ => .sumBelow (by omega) ?_
  refine .ite (fun _ => .error _) fun htwo => .bind (.lift _) fun extensionsLen hlen => ?_
  have hlt : extensionsLen < 2 ^ 16 := beU16_lt hlen
  refine .sumBelow (by omega) (.ite (fun _ => .error _) fun hend => ?_)
  refine .bind (agrees_extensionLoopChecked _ _ hstop (by omega) (by omega) (by omega))
    fun r _ => ?_
  refine .ite (fun _ => .error _) fun _ => ?_
  cases r.2.2 with
  | none => exact .error _
  | some host => exact .ite (fun _ => .error _) fun _ => .ok _

end XtpRs.Sniff
