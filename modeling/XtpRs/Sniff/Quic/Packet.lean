import XtpRs.Sniff.Quic.Frames
import XtpRs.Sniff.Tls

/-!
# Initial packets and datagrams

The rest of `src/sniff/quic.rs`: the header of an Initial packet, the removal of its protection, the
packets of a datagram one after the other, and the sniffer session that is fed the datagrams of a
flow. HKDF, AES and AES-GCM come from other packages; they are a parameter, `QuicPrimitives`.

The functions of the source change the reassembly buffer while they run, also when they fail: they
return their result together with the buffer they leave.

## Main definitions

* `quicParseOneInitialPacket`, `sniffQuicSniFromDatagramWithReassembly`.
* `quicSniUdpSniffer`: the sniffer.
-/

namespace XtpRs.Sniff

open Lib

/-! ### Numbers in network order -/

theorem beNat_beBytes {k n : ℕ} (h : n < 256 ^ k) : beNat (beBytes k n) = n := by
  rw [beNat, foldl_beBytes, Nat.zero_mul, Nat.zero_add, Nat.mod_eq_of_lt h]

theorem beU24_beBytes {n : ℕ} (h : n < 256 ^ 3) : beU24 (beBytes 3 n) = .ok n := by
  have hlength := length_beBytes 3 n
  rw [beU24, if_neg (by omega), List.take_of_length_le hlength.le, beNat_beBytes h]

/-! ### Keys -/

/-- The cryptographic functions: HKDF with SHA-256, the AES-128 block cipher, and AES-128-GCM
opening (key, nonce, ciphertext, associated data). A failure is `none`. -/
structure QuicPrimitives where
  hkdfExtract : Bytes → Bytes → Bytes
  hkdfExpand : Bytes → Bytes → ℕ → Option Bytes
  aesEncryptBlock : Bytes → Bytes → Bytes
  aeadDecrypt : Bytes → Bytes → Bytes → Bytes → Option Bytes

def quicVersionV1 : ℕ := 0x00000001

def quicVersionV2 : ℕ := 0x6b3343cf

def quicVersionDraft29 : ℕ := 0xff00001d

def quicV1InitialSalt : Bytes :=
  [0x38, 0x76, 0x2c, 0xf7, 0xf5, 0x59, 0x34, 0xb3, 0x4d, 0x17, 0x9a, 0xe6, 0xa4, 0xc8, 0x0c, 0xad,
    0xcc, 0xbb, 0x7f, 0x0a]

def quicV2InitialSalt : Bytes :=
  [0x0d, 0xed, 0xe3, 0xde, 0xf7, 0x00, 0xa6, 0xdb, 0x81, 0x93, 0x81, 0xbe, 0x6e, 0x26, 0x9d, 0xcb,
    0xf9, 0xbd, 0x2e, 0xd9]

def quicDraft29InitialSalt : Bytes :=
  [0xaf, 0xbf, 0xec, 0x28, 0x99, 0x93, 0xd2, 0x4c, 0x9e, 0x97, 0x86, 0xf1, 0x9c, 0x61, 0x11, 0xe0,
    0x43, 0x90, 0xa8, 0x99]

/-- `quic_initial_salt`. -/
def quicInitialSalt (version : ℕ) : Option Bytes :=
  if version = quicVersionV1 then some quicV1InitialSalt
  else if version = quicVersionV2 then some quicV2InitialSalt
  else if version = quicVersionDraft29 then some quicDraft29InitialSalt
  else none

/-- `QuicInitialKeys`. -/
structure QuicInitialKeys where
  hpKey : Bytes
  key : Bytes
  iv : Bytes

/-- The prefix `tls13 ` of labels. -/
def tls13Label : Bytes := [0x74, 0x6c, 0x73, 0x31, 0x33, 0x20]

/-- The labels `client in`, `quic hp`, `quic key` and `quic iv`. -/
def labelClientIn : Bytes := [0x63, 0x6c, 0x69, 0x65, 0x6e, 0x74, 0x20, 0x69, 0x6e]

def labelQuicHp : Bytes := [0x71, 0x75, 0x69, 0x63, 0x20, 0x68, 0x70]

def labelQuicKey : Bytes := [0x71, 0x75, 0x69, 0x63, 0x20, 0x6b, 0x65, 0x79]

def labelQuicIv : Bytes := [0x71, 0x75, 0x69, 0x63, 0x20, 0x69, 0x76]

/-- `hkdf_expand_label`. -/
def hkdfExpandLabel (prims : QuicPrimitives) (secret label context : Bytes) (outLen : ℕ) :
    Except UdpSniffError Bytes :=
  let fullLabel := tls13Label ++ label
  if 255 < fullLabel.length ∨ 255 < context.length then .error .parseError
  else
    let info := u16ToBeBytes (UInt16.ofNat outLen) ++ [UInt8.ofNat fullLabel.length] ++ fullLabel ++
      [UInt8.ofNat context.length] ++ context
    match prims.hkdfExpand secret info outLen with
    | some out => .ok out
    | none => .error .parseError

/-- `derive_quic_initial_keys`. -/
def deriveQuicInitialKeys (prims : QuicPrimitives) (version : ℕ) (dcid : Bytes) :
    Except UdpSniffError QuicInitialKeys :=
  match quicInitialSalt version with
  | none => .error .protocolNotMatched
  | some salt => do
    let initialSecret ← hkdfExpandLabel prims (prims.hkdfExtract salt dcid) labelClientIn [] 32
    let hpKey ← hkdfExpandLabel prims initialSecret labelQuicHp [] 16
    let key ← hkdfExpandLabel prims initialSecret labelQuicKey [] 16
    let iv ← hkdfExpandLabel prims initialSecret labelQuicIv [] 12
    .ok ⟨hpKey, key, iv⟩

/-! ### Opening a packet -/

/-- `quic_build_nonce`. -/
def quicBuildNonce (iv : Bytes) (packetNumber : ℕ) : Bytes :=
  iv.take 4 ++ List.zipWith (· ^^^ ·) (iv.drop 4) (beBytes 8 packetNumber)

/-- `quic_remove_header_protection_and_decrypt`. -/
def quicRemoveHeaderProtectionAndDecrypt (target : Target) (prims : QuicPrimitives) (packet : Bytes)
    (packetStart pnOffset packetEnd : ℕ) (keys : QuicInitialKeys) : Except UdpSniffError Bytes :=
  if packet.length < packetEnd ∨ packetEnd ≤ pnOffset then .error .insufficientPrefix
  else do
    let sampleStart ← target.checkedAdd pnOffset 4
    let sampleEnd ← target.checkedAdd sampleStart 16
    if packetEnd < sampleEnd then .error .insufficientPrefix
    else
      let mask := prims.aesEncryptBlock keys.hpKey (slice packet sampleStart sampleEnd)
      let firstUnprotected := packet.getD packetStart 0 ^^^ (mask.getD 0 0 &&& 0x0f)
      let pnLen := ((firstUnprotected &&& 0x03) + 1).toNat
      if pnLen = 0 ∨ 4 < pnLen then .error .protocolNotMatched
      else if packetEnd < pnOffset + pnLen then .error .insufficientPrefix
      else
        let pnBytes :=
          List.zipWith (· ^^^ ·) (slice packet pnOffset (pnOffset + pnLen)) (mask.drop 1)
        let header := (slice packet packetStart pnOffset).set 0 firstUnprotected ++ pnBytes
        let ciphertext := slice packet (pnOffset + pnLen) packetEnd
        if ciphertext.length < 16 then .error .insufficientPrefix
        else
          let nonce := quicBuildNonce keys.iv (beNat pnBytes)
          match prims.aeadDecrypt keys.key nonce ciphertext header with
          | some plaintext => .ok plaintext
          | none => .error .protocolNotMatched

/-! ### One packet -/

/-- `quic_read_u32`. -/
def quicReadU32 (buf : Bytes) (off : ℕ) : Except UdpSniffError ℕ :=
  if buf.length < off + 4 then .error .insufficientPrefix
  else .ok (beNat (slice buf off (off + 4)))

/-- The type of the packet is Initial. -/
def isInitial (version : ℕ) (first : UInt8) : Bool :=
  let packetType := (first &&& 0x30) >>> 4
  if version = quicVersionV1 ∨ version = quicVersionDraft29 then packetType == 0
  else if version = quicVersionV2 then packetType == 1
  else false

/-- The header of an Initial packet up to its destination connection id: the version, the id and
the offset behind it. -/
def quicParseInitialHeader (datagram : Bytes) (packetStart : ℕ) :
    Except UdpSniffError (ℕ × Bytes × ℕ) :=
  match datagram[packetStart]? with
  | none => .error .insufficientPrefix
  | some first =>
    if first &&& 0x80 = 0 ∨ first &&& 0x40 = 0 then .error .protocolNotMatched
    else do
      let off := packetStart + 1
      let version ← quicReadU32 datagram off
      let off := off + 4
      if (quicInitialSalt version).isNone then .error .protocolNotMatched
      else if !isInitial version first then .error .protocolNotMatched
      else
        match datagram[off]? with
        | none => .error .insufficientPrefix
        | some dcidLen =>
          let off := off + 1
          if 20 < dcidLen.toNat then .error .protocolNotMatched
          else if datagram.length < off + dcidLen.toNat then .error .insufficientPrefix
          else .ok (version, slice datagram off (off + dcidLen.toNat), off + dcidLen.toNat)

/-- The rest of the header: the offsets of the packet number and of the end of the packet. -/
def quicParseInitialLengths (target : Target) (datagram : Bytes) (off : ℕ) :
    Except UdpSniffError (ℕ × ℕ) :=
  match datagram[off]? with
  | none => .error .insufficientPrefix
  | some scidLen =>
    let off := off + 1
    if 20 < scidLen.toNat then .error .protocolNotMatched
    else if datagram.length < off + scidLen.toNat then .error .insufficientPrefix
    else do
      let off := off + scidLen.toNat
      let (tokenLen, off) ← quicReadVarint datagram off
      let tokenLen ← target.usizeTryFrom tokenLen
      let tokenEnd ← target.checkedAdd off tokenLen
      if datagram.length < tokenEnd then .error .insufficientPrefix
      else do
        let (protectedLen, pnOffset) ← quicReadVarint datagram tokenEnd
        let protectedLen := target.asUsize protectedLen
        if protectedLen = 0 then .error .protocolNotMatched
        else do
          let packetEnd ← target.checkedAdd pnOffset protectedLen
          if datagram.length < packetEnd then .error .insufficientPrefix
          else .ok (pnOffset, packetEnd)

/-- The buffer is emptied when a packet has another destination connection id than the last. -/
def QuicCryptoReassembly.noteDcid (c : QuicCryptoReassembly) (dcid : Bytes) :
    QuicCryptoReassembly :=
  match c.lastDcid with
  | some last => if last = dcid then c else { c.reset with lastDcid := some dcid }
  | none => { c with lastDcid := some dcid }

/-- `quic_parse_one_initial_packet`: the offset behind the packet. -/
def quicParseOneInitialPacket (target : Target) (prims : QuicPrimitives) (datagram : Bytes)
    (packetStart : ℕ) (crypto : QuicCryptoReassembly) :
    Except UdpSniffError ℕ × QuicCryptoReassembly :=
  match quicParseInitialHeader datagram packetStart with
  | .error e => (.error e, crypto)
  | .ok (version, dcid, off) =>
    let crypto := crypto.noteDcid dcid
    match quicParseInitialLengths target datagram off with
    | .error e => (.error e, crypto)
    | .ok (pnOffset, packetEnd) =>
      let plaintext := do
        let keys ← deriveQuicInitialKeys prims version dcid
        quicRemoveHeaderProtectionAndDecrypt target prims datagram packetStart pnOffset packetEnd
          keys
      match plaintext with
      | .error e => (.error e, crypto)
      | .ok frames =>
        match quicParseInitialFrames target frames crypto with
        | (.error e, crypto) => (.error e, crypto)
        | (.ok (), crypto) => (.ok packetEnd, crypto)

/-! ### Datagrams -/

/-- `QUIC_SNI_INPUT_CAP`. -/
def quicSniInputCap : ℕ := 16 * 1024

/-- `quic_parse_tls_client_hello_from_crypto`. -/
def quicParseTlsClientHelloFromCrypto (crypto : Bytes) : Except UdpSniffError Str :=
  if crypto.length < 4 then .error .insufficientPrefix
  else if crypto.getD 0 0 ≠ 0x01 then .error .protocolNotMatched
  else
    match beU24 (slice crypto 1 4) with
    | .error _ => .error .parseError
    | .ok hsLen =>
      let total := 4 + hsLen
      if quicCryptoReassemblyCap < total then .error .tooLarge
      else if crypto.length < total then .error .insufficientPrefix
      else
        match parseSniFromClientHelloBody (slice crypto 4 total) with
        | .ok host => .ok host
        | .error e => .error e.toUdp

/-- The loop over the packets of a datagram. Each round moves the offset forward, so the length of
the datagram bounds the number of rounds. -/
def datagramLoop (target : Target) (prims : QuicPrimitives) (datagram : Bytes) :
    ℕ → ℕ → Bool → QuicCryptoReassembly → Except UdpSniffError Str × QuicCryptoReassembly
  | 0, _, sawInitial, crypto =>
    (.error (if sawInitial then .insufficientPrefix else .protocolNotMatched), crypto)
  | fuel + 1, off, sawInitial, crypto =>
    if datagram.length ≤ off then
      (.error (if sawInitial then .insufficientPrefix else .protocolNotMatched), crypto)
    else
      match quicParseOneInitialPacket target prims datagram off crypto with
      | (.ok nextOff, crypto) =>
        match quicParseTlsClientHelloFromCrypto crypto.contiguous with
        | .ok host => (.ok host, crypto)
        | .error .insufficientPrefix => datagramLoop target prims datagram fuel nextOff true crypto
        | .error e => (.error e, crypto)
      | (.error .protocolNotMatched, crypto) =>
        -- something else follows the Initial packets
        (.error (if sawInitial then .insufficientPrefix else .protocolNotMatched), crypto)
      | (.error e, crypto) => (.error e, crypto)

/-- `sniff_quic_sni_from_datagram_with_reassembly`, with the buffer it leaves. -/
def sniffQuicSniFromDatagramWithReassembly (target : Target) (prims : QuicPrimitives)
    (datagram : Bytes) (crypto : QuicCryptoReassembly) :
    Except UdpSniffError Str × QuicCryptoReassembly :=
  match datagram.take quicSniInputCap with
  | [] => (.error .insufficientPrefix, crypto)
  | first :: rest =>
    if first &&& 0x80 = 0 ∨ first &&& 0x40 = 0 then (.error .protocolNotMatched, crypto)
    else datagramLoop target prims (first :: rest) (first :: rest).length 0 false crypto

/-- The outcome of `QuicSniUdpSnifferSession::feed`. -/
def feedOutcome : Except UdpSniffError Str → UdpSniffOutcome
  | .ok host => .matched .quicSni host
  | .error .protocolNotMatched => .notMatched
  | .error .insufficientPrefix => .needMore .quicSni
  | .error e => .failed .quicSni e

/-- `QuicSniUdpSniffer`: the state of a session is its reassembly buffer. -/
def quicSniUdpSniffer (target : Target) (prims : QuicPrimitives) :
    UdpSniffers QuicCryptoReassembly where
  newSessions := [{}]
  feed crypto payload :=
    let r := sniffQuicSniFromDatagramWithReassembly target prims payload crypto
    (feedOutcome r.1, r.2)

end XtpRs.Sniff
