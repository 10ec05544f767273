import XtpRs.Sniff.Quic.Packet

/-!
# Well-formed Initial packets

An Initial packet as a data type with its encoding, in which the lengths may have any of their
encodings. The parser reads it back wherever it stands in a datagram, and refuses to read anything
that does not begin like an Initial packet.

## Main definitions

* `InitialPacket`, `InitialPacket.encode`: packets with the protected part of their bytes.
* `InitialPacket.Opens`: the packet opens to a payload under the cryptographic functions.
* `IsLongHeaderInitial`: bytes that begin with the header of an Initial packet.

## Main results

* `InitialPacket.quicParseOneInitialPacket_encode`: a packet is parsed wherever it stands.
* `quicParseOneInitialPacket_of_not`: what is no Initial packet leaves the buffer as it is.
-/

namespace XtpRs.Sniff

open Lib

/-- An Initial packet. `body` is the protected packet number and payload. -/
structure InitialPacket where
  first : UInt8
  version : ℕ
  dcid : Bytes
  scid : Bytes
  tokenLen : Varint
  token : Bytes
  length : Varint
  body : Bytes
  long_header : first &&& 0x80 ≠ 0 ∧ first &&& 0x40 ≠ 0
  salt : (quicInitialSalt version).isSome = true
  initial : isInitial version first = true
  dcid_le : dcid.length ≤ 20
  scid_le : scid.length ≤ 20
  tokenLen_eq : tokenLen.value = token.length
  length_eq : length.value = body.length
  body_ne : body ≠ []

namespace InitialPacket

variable (p : InitialPacket)

/-- The header behind the destination connection id. -/
def lengths : Bytes :=
  UInt8.ofNat p.scid.length :: (p.scid ++ (p.tokenLen.encode ++ (p.token ++ p.length.encode)))

/-- The header up to the packet number. -/
def header : Bytes :=
  p.first :: (beBytes 4 p.version ++ (UInt8.ofNat p.dcid.length :: (p.dcid ++ p.lengths)))

def encode : Bytes := p.header ++ p.body

/-- The packet opens to the payload, which is not longer than what is protected. -/
def Opens (target : Target) (prims : QuicPrimitives) (payload : Bytes) : Prop :=
  (∃ keys, deriveQuicInitialKeys prims p.version p.dcid = .ok keys ∧
    quicRemoveHeaderProtectionAndDecrypt target prims p.encode 0 p.header.length p.encode.length
      keys = .ok payload) ∧
  payload.length ≤ p.body.length

theorem length_encode_pos : 0 < p.encode.length := by
  rw [encode, header, List.cons_append, List.length_cons]
  exact Nat.succ_pos _

theorem version_lt : p.version < 2 ^ 32 := by
  have hsalt := p.salt
  unfold quicInitialSalt at hsalt
  split_ifs at hsalt with h1 h2 h3
  · rw [h1]
    decide
  · rw [h2]
    decide
  · rw [h3]
    decide
  · cases hsalt

variable {p} {target : Target} {prims : QuicPrimitives} {datagram rest : Bytes} {start : ℕ}

theorem toNat_ofNat_of_le {n : ℕ} (h : n ≤ 20) : (UInt8.ofNat n).toNat = n := by
  rw [UInt8.toNat_ofNat']
  omega

/-- The first part of the header is read back. -/
theorem quicParseInitialHeader_encode (h : Remaining datagram start (p.encode ++ rest)) :
    quicParseInitialHeader datagram start =
      .ok (p.version, p.dcid, start + 1 + 4 + 1 + p.dcid.length) := by
  have hfirst : Remaining datagram start (p.first :: (beBytes 4 p.version ++
      (UInt8.ofNat p.dcid.length :: (p.dcid ++ (p.lengths ++ (p.body ++ rest)))))) := by
    simpa [encode, header] using h
  have hversion := hfirst.advance_cons
  have hdcidLen := hversion.advance
  rw [length_beBytes] at hdcidLen
  have hdcid := hdcidLen.advance_cons
  have hlength := hdcid.length_eq
  rw [List.length_append] at hlength
  have hu32 : quicReadU32 datagram (start + 1) = .ok p.version := by
    have hslice := hversion.slice_self
    rw [length_beBytes] at hslice
    have hlt : p.version < 256 ^ 4 := p.version_lt.trans_eq (by norm_num)
    rw [quicReadU32, if_neg (by omega), hslice, beNat_beBytes hlt]
  have hsalt : (quicInitialSalt p.version).isNone = false := by
    rw [← Option.not_isSome, p.salt]
    rfl
  rw [quicParseInitialHeader, hfirst.getElem?_head]
  dsimp only
  rw [if_neg (not_or.mpr p.long_header), hu32]
  dsimp only [bind, Except.bind]
  rw [hsalt, if_neg Bool.false_ne_true, if_neg (by simp [p.initial]), hdcidLen.getElem?_head]
  dsimp only
  rw [toNat_ofNat_of_le p.dcid_le, if_neg (by have := p.dcid_le; omega), if_neg (by omega),
    hdcid.slice_self]

/-- The rest of the header is read back. -/
theorem quicParseInitialLengths_encode {off : ℕ} (hdatagram : datagram.length ≤ quicSniInputCap)
    (h : Remaining datagram off (p.lengths ++ (p.body ++ rest))) :
    quicParseInitialLengths target datagram off =
      .ok (off + p.lengths.length, off + p.lengths.length + p.body.length) := by
  have hcap : quicSniInputCap < 2 ^ 32 := by decide
  have hbody := List.length_pos_iff.mpr p.body_ne
  have hscidLen : Remaining datagram off (UInt8.ofNat p.scid.length :: (p.scid ++
      (p.tokenLen.encode ++ (p.token ++ (p.length.encode ++ (p.body ++ rest)))))) := by
    simpa [lengths] using h
  have hscid := hscidLen.advance_cons
  have htokenLen := hscid.advance
  have htoken := htokenLen.advance
  have hlen := htoken.advance
  have hend := hlen.advance.length_eq
  rw [List.length_append] at hend
  have htotal : p.lengths.length = 1 + p.scid.length + p.tokenLen.encode.length + p.token.length +
      p.length.encode.length := by
    simp only [lengths, List.length_cons, List.length_append]
    omega
  rw [quicParseInitialLengths, hscidLen.getElem?_head]
  dsimp only
  rw [toNat_ofNat_of_le p.scid_le, if_neg (by have := p.scid_le; omega), if_neg (by omega),
    quicReadVarint_encode _ htokenLen, p.tokenLen_eq]
  dsimp only [bind, Except.bind]
  rw [Target.usizeTryFrom_of_lt (by omega)]
  dsimp only
  rw [Target.checkedAdd_of_lt (by omega)]
  dsimp only
  rw [if_neg (by omega), quicReadVarint_encode _ hlen, p.length_eq]
  dsimp only
  rw [Target.asUsize_of_lt (by omega), if_neg (by omega), Target.checkedAdd_of_lt (by omega)]
  dsimp only
  rw [if_neg (by omega), htotal]
  congr 2
  · omega
  · omega

/-- Opening a packet depends on the packet only, not on where it stands in the datagram. -/
theorem quicRemoveHeaderProtectionAndDecrypt_shift {packet : Bytes} {pnOffset : ℕ}
    {keys : QuicInitialKeys} (hdatagram : datagram.length ≤ quicSniInputCap)
    (hpn : pnOffset < packet.length) (h : Remaining datagram start (packet ++ rest)) :
    quicRemoveHeaderProtectionAndDecrypt target prims datagram start (start + pnOffset)
        (start + packet.length) keys =
      quicRemoveHeaderProtectionAndDecrypt target prims packet 0 pnOffset packet.length keys := by
  have hcap : quicSniInputCap < 2 ^ 31 := by decide
  have hlength := h.length_eq
  rw [List.length_append] at hlength
  have hhead : datagram.getD start 0 = packet.getD 0 0 := by
    have hget := h.getElem?_eq (i := 0) (by omega)
    rw [Nat.add_zero] at hget
    rw [List.getD_eq_getElem?_getD, List.getD_eq_getElem?_getD, hget]
  have hslice : ∀ {a b : ℕ}, b ≤ packet.length →
      slice datagram (start + a) (start + b) = slice packet a b := fun hb => h.slice_eq hb
  have hzero : slice datagram start (start + pnOffset) = slice packet 0 pnOffset :=
    hslice (a := 0) hpn.le
  rw [quicRemoveHeaderProtectionAndDecrypt, quicRemoveHeaderProtectionAndDecrypt,
    if_neg (by omega), if_neg (by omega)]
  rw [Target.checkedAdd_of_lt (by omega), Target.checkedAdd_of_lt (by omega)]
  dsimp only [bind, Except.bind]
  rw [Target.checkedAdd_of_lt (by omega), Target.checkedAdd_of_lt (by omega)]
  dsimp only
  by_cases hsample : packet.length < pnOffset + 4 + 16
  · rw [if_pos (by omega), if_pos hsample]
  · rw [if_neg (by omega), if_neg hsample, hhead, hzero]
    have hsampleEq : slice datagram (start + pnOffset + 4) (start + pnOffset + 4 + 16) =
        slice packet (pnOffset + 4) (pnOffset + 4 + 16) := by
      have hs := hslice (a := pnOffset + 4) (b := pnOffset + 4 + 16) (by omega)
      rwa [← Nat.add_assoc, ← Nat.add_assoc, ← Nat.add_assoc] at hs
    rw [hsampleEq]
    generalize prims.aesEncryptBlock keys.hpKey (slice packet (pnOffset + 4) (pnOffset + 4 + 16)) =
      mask
    generalize packet.getD 0 0 ^^^ (mask.getD 0 0 &&& 0x0f) = firstUnprotected
    generalize ((firstUnprotected &&& 0x03) + 1).toNat = pnLen
    by_cases hpnLen : pnLen = 0 ∨ 4 < pnLen
    · rw [if_pos hpnLen, if_pos hpnLen]
    rw [if_neg hpnLen, if_neg hpnLen]
    by_cases hfit : packet.length < pnOffset + pnLen
    · rw [if_pos (by omega), if_pos hfit]
    have hpnBytes : slice datagram (start + pnOffset) (start + pnOffset + pnLen) =
        slice packet pnOffset (pnOffset + pnLen) := by
      have hs := hslice (a := pnOffset) (b := pnOffset + pnLen) (by omega)
      rwa [← Nat.add_assoc] at hs
    have hcipher : slice datagram (start + pnOffset + pnLen) (start + packet.length) =
        slice packet (pnOffset + pnLen) packet.length := by
      have hs := hslice (a := pnOffset + pnLen) (b := packet.length) le_rfl
      rwa [← Nat.add_assoc] at hs
    rw [if_neg (by omega), if_neg hfit, hpnBytes, hcipher]

/-- **One packet.** A packet that opens to frames is parsed wherever it stands in a datagram: the
data of its CRYPTO frames is stored. -/
theorem quicParseOneInitialPacket_encode {frames : List Frame} {crypto : QuicCryptoReassembly}
    (hdatagram : datagram.length ≤ quicSniInputCap)
    (h : Remaining datagram start (p.encode ++ rest))
    (hopens : p.Opens target prims (encodeFrames frames)) (hfits : ∀ f ∈ frames, f.Fits) :
    quicParseOneInitialPacket target prims datagram start crypto =
      (.ok (start + p.encode.length), frames.foldl Frame.apply (crypto.noteDcid p.dcid)) := by
  obtain ⟨⟨keys, hderive, hdecrypt⟩, hpayload⟩ := hopens
  have hcap : quicSniInputCap < 2 ^ 32 := by decide
  have hlength := h.length_eq
  have hencode : p.encode.length = p.header.length + p.body.length := by
    rw [encode, List.length_append]
  rw [List.length_append, hencode] at hlength
  have hheader : p.header.length = 1 + 4 + 1 + p.dcid.length + p.lengths.length := by
    simp only [header, List.length_cons, List.length_append, length_beBytes]
    omega
  have hbody := List.length_pos_iff.mpr p.body_ne
  have hlengths : Remaining datagram (start + 1 + 4 + 1 + p.dcid.length)
      (p.lengths ++ (p.body ++ rest)) := by
    have hsplit : p.encode ++ rest = (p.first :: (beBytes 4 p.version ++
        (UInt8.ofNat p.dcid.length :: p.dcid))) ++ (p.lengths ++ (p.body ++ rest)) := by
      simp [encode, header]
    rw [hsplit] at h
    have hadvance := h.advance
    rw [List.length_cons, List.length_append, length_beBytes, List.length_cons] at hadvance
    have hoff : start + (4 + (p.dcid.length + 1) + 1) = start + 1 + 4 + 1 + p.dcid.length := by
      omega
    rwa [hoff] at hadvance
  have hpnOffset : start + 1 + 4 + 1 + p.dcid.length + p.lengths.length =
      start + p.header.length := by
    omega
  have hopen : quicRemoveHeaderProtectionAndDecrypt target prims datagram start
      (start + p.header.length) (start + p.encode.length) keys = .ok (encodeFrames frames) := by
    rw [quicRemoveHeaderProtectionAndDecrypt_shift hdatagram (by omega) h, hdecrypt]
  rw [quicParseOneInitialPacket, quicParseInitialHeader_encode h]
  dsimp only
  rw [quicParseInitialLengths_encode hdatagram hlengths, hpnOffset, hderive]
  dsimp only [bind, Except.bind]
  rw [Nat.add_assoc start, ← hencode, hopen]
  dsimp only
  rw [quicParseInitialFrames_encode (by omega) hfits]

end InitialPacket

/-! ### Other bytes -/

/-- The bytes begin with the header of an Initial packet of a known version, up to its destination
connection id. -/
def IsLongHeaderInitial (bytes : Bytes) : Prop :=
  ∃ (first : UInt8) (version : Bytes) (dcidLen : UInt8) (dcid rest : Bytes),
    bytes = first :: (version ++ (dcidLen :: (dcid ++ rest))) ∧
    (first &&& 0x80 ≠ 0 ∧ first &&& 0x40 ≠ 0) ∧ version.length = 4 ∧
    (quicInitialSalt (beNat version)).isSome = true ∧ isInitial (beNat version) first = true ∧
    dcidLen.toNat = dcid.length ∧ dcid.length ≤ 20

variable {datagram rest : Bytes} {start : ℕ}

/-- A header that is read is there. -/
theorem isLongHeaderInitial_of_ok {r : ℕ × Bytes × ℕ} (h : Remaining datagram start rest)
    (hok : quicParseInitialHeader datagram start = .ok r) : IsLongHeaderInitial rest := by
  unfold quicParseInitialHeader at hok
  split at hok
  · cases hok
  rename_i first hfirst
  split_ifs at hok with hbits
  unfold quicReadU32 at hok
  dsimp only at hok
  by_cases hlen : datagram.length < start + 1 + 4
  · rw [if_pos hlen] at hok
    cases hok
  rw [if_neg hlen] at hok
  dsimp only [bind, Except.bind] at hok
  split_ifs at hok with hsalt htype
  split at hok
  · cases hok
  rename_i dcidLen hdcidLen
  split_ifs at hok with htwenty hdcid
  refine ⟨first, slice datagram (start + 1) (start + 1 + 4), dcidLen,
    slice datagram (start + 1 + 4 + 1) (start + 1 + 4 + 1 + dcidLen.toNat),
    datagram.drop (start + 1 + 4 + 1 + dcidLen.toNat), ?_, not_or.mp hbits, ?_, ?_, ?_, ?_, ?_⟩
  · rw [← h.eq, List.drop_eq_getElem?_toList_append, hfirst,
      drop_eq_slice_append datagram (Nat.le_add_right (start + 1) 4),
      List.drop_eq_getElem?_toList_append (i := start + 1 + 4), hdcidLen,
      drop_eq_slice_append datagram (Nat.le_add_right (start + 1 + 4 + 1) dcidLen.toNat)]
    rfl
  · rw [length_slice (by omega)]
    omega
  · rwa [← Option.not_isSome, Bool.not_eq_true', Bool.not_eq_false] at hsalt
  · simpa using htype
  · rw [length_slice (by omega)]
    omega
  · rw [length_slice (by omega)]
    omega

/-- The errors of the header. -/
theorem quicParseInitialHeader_error {e : UdpSniffError}
    (h : quicParseInitialHeader datagram start = .error e) :
    e = .protocolNotMatched ∨ e = .insufficientPrefix := by
  unfold quicParseInitialHeader quicReadU32 at h
  dsimp only [bind, Except.bind] at h
  grind

/-- What does not begin like an Initial packet leaves the buffer as it is. -/
theorem quicParseOneInitialPacket_of_not (target : Target) (prims : QuicPrimitives)
    (crypto : QuicCryptoReassembly) (h : Remaining datagram start rest)
    (hnot : ¬IsLongHeaderInitial rest) :
    ∃ e, quicParseOneInitialPacket target prims datagram start crypto = (.error e, crypto) ∧
      (e = .protocolNotMatched ∨ e = .insufficientPrefix) := by
  rw [quicParseOneInitialPacket]
  cases hheader : quicParseInitialHeader datagram start with
  | ok r => exact absurd (isLongHeaderInitial_of_ok h hheader) hnot
  | error e => exact ⟨e, rfl, quicParseInitialHeader_error hheader⟩

end XtpRs.Sniff
