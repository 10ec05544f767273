import XtpRs.Lib.Run
import XtpRs.Sniff.Quic.ClientHello
import XtpRs.Sniff.Quic.FrameBounds
import XtpRs.Sniff.ServerNameSums

/-!
# Accesses and sums of the datagram parser

Everything that `sniff_quic_sni_from_datagram_with_reassembly` runs is written once more with every
access, every sum and every difference of `usize` checked, and with a round for each byte at most in
every loop. The release builds of the source end the process where such a check fails. The checked
parser always has a result, that of the parser, whatever HKDF, AES and AES-GCM answer, as long as
the lengths of the answers are those that their types promise.

## Main definitions

* `QuicPrimitives.Sized`: the lengths promised by the types of the other packages.
* `sniffChecked`: the checked parser.

## Main results

* `sniffChecked_eq`: the checked parser has the result of the parser.
* `returns_quicParseOneInitialPacket`: the offset moves forward with every packet.
* `quic_total`: both for every state that a flow of datagrams can reach.
-/

namespace XtpRs.Sniff

open Lib Guarded

/-- The lengths that the types of the other packages promise: HKDF fills the output it is given, a
block has 16 bytes, and a plaintext is a `Vec<u8>`. -/
structure QuicPrimitives.Sized (target : Target) (prims : QuicPrimitives) : Prop where
  hkdfExpand (secret info : Bytes) (outLen : ℕ) (out : Bytes)
    (h : prims.hkdfExpand secret info outLen = some out) : out.length = outLen
  aesEncryptBlock (key block : Bytes) : (prims.aesEncryptBlock key block).length = 16
  aeadDecrypt (key nonce ciphertext header plaintext : Bytes)
    (h : prims.aeadDecrypt key nonce ciphertext header = some plaintext) :
    plaintext.length ≤ target.isizeMax

variable {target : Target} {prims : QuicPrimitives}

/-! ### Keys -/

/-- `hkdf_expand_label`, with the sums for the capacities of its buffers. -/
def hkdfExpandLabelChecked (target : Target) (prims : QuicPrimitives)
    (secret label context : Bytes) (outLen : ℕ) : Guarded UdpSniffError Bytes := do
  let fullLabelLen ← sumBelow target.usizeEnd tls13Label.length label.length
  if 255 < fullLabelLen ∨ 255 < context.length then throw .parseError
  else do
    let infoLen ← sumBelow target.usizeEnd (2 + 1) fullLabelLen
    let infoLen ← sumBelow target.usizeEnd infoLen 1
    let _ ← sumBelow target.usizeEnd infoLen context.length
    lift (hkdfExpandLabel prims secret label context outLen)

/-- `derive_quic_initial_keys`. -/
def deriveQuicInitialKeysChecked (target : Target) (prims : QuicPrimitives) (version : ℕ)
    (dcid : Bytes) : Guarded UdpSniffError QuicInitialKeys :=
  match quicInitialSalt version with
  | none => throw .protocolNotMatched
  | some salt => do
    let initialSecret ← hkdfExpandLabelChecked target prims (prims.hkdfExtract salt dcid)
      labelClientIn [] 32
    let hpKey ← hkdfExpandLabelChecked target prims initialSecret labelQuicHp [] 16
    let key ← hkdfExpandLabelChecked target prims initialSecret labelQuicKey [] 16
    let iv ← hkdfExpandLabelChecked target prims initialSecret labelQuicIv [] 12
    pure ⟨hpKey, key, iv⟩

theorem agrees_hkdfExpandLabelChecked {secret label context : Bytes} {outLen : ℕ}
    (hlabel : label.length ≤ 9) (hcontext : context.length = 0) :
    Agrees (hkdfExpandLabelChecked target prims secret label context outLen)
      (hkdfExpandLabel prims secret label context outLen) := by
  have husize := target.le_usizeEnd
  have htls : tls13Label.length = 6 := rfl
  refine .sumBelow (by omega) ?_
  rw [if_neg (by omega)]
  refine .sumBelow (by omega) (.sumBelow (by omega) (.sumBelow (by omega) (.lift _)))

theorem agrees_deriveQuicInitialKeysChecked {version : ℕ} {dcid : Bytes} :
    Agrees (deriveQuicInitialKeysChecked target prims version dcid)
      (deriveQuicInitialKeys prims version dcid) := by
  unfold deriveQuicInitialKeysChecked deriveQuicInitialKeys
  cases quicInitialSalt version with
  | none => exact .error _
  | some salt =>
    refine .bind (agrees_hkdfExpandLabelChecked (by decide) rfl) fun initialSecret _ => ?_
    refine .bind (agrees_hkdfExpandLabelChecked (by decide) rfl) fun hpKey _ => ?_
    refine .bind (agrees_hkdfExpandLabelChecked (by decide) rfl) fun key _ => ?_
    exact .bind (agrees_hkdfExpandLabelChecked (by decide) rfl) fun iv _ => .ok _

theorem returns_hkdfExpandLabel (hprims : prims.Sized target) (secret label context : Bytes)
    (outLen : ℕ) :
    Returns (fun out => out.length = outLen)
      (hkdfExpandLabel prims secret label context outLen) := by
  refine .ite (fun _ => .error _) fun _ => ?_
  split
  · rename_i out hout
    exact .ok (hprims.hkdfExpand _ _ _ _ hout)
  · exact .error _

/-- The nonce has the length of its array. -/
theorem returns_deriveQuicInitialKeys (hprims : prims.Sized target) (version : ℕ) (dcid : Bytes) :
    Returns (fun keys => keys.iv.length = 12) (deriveQuicInitialKeys prims version dcid) := by
  unfold deriveQuicInitialKeys
  cases quicInitialSalt version with
  | none => exact .error _
  | some salt =>
    refine .bind fun initialSecret _ => .bind fun hpKey _ => .bind fun key _ => ?_
    exact .bind fun iv hiv => .ok (returns_hkdfExpandLabel hprims _ _ _ _ _ hiv)

/-! ### Opening a packet -/

/-- The loop of `quic_build_nonce` from `i` on, with `rounds` rounds left. -/
def nonceLoopChecked (target : Target) (pn : Bytes) :
    ℕ → ℕ → Bytes → Guarded UdpSniffError Bytes
  | 0, _, nonce => pure nonce
  | rounds + 1, i, nonce => do
    let base ← difference 12 8
    let j ← sumBelow target.usizeEnd base i
    let a ← getAt nonce j
    let b ← getAt pn i
    let nonce ← setAt nonce j (a ^^^ b)
    nonceLoopChecked target pn rounds (i + 1) nonce

/-- `quic_build_nonce`. -/
def quicBuildNonceChecked (target : Target) (iv : Bytes) (packetNumber : ℕ) :
    Guarded UdpSniffError Bytes :=
  nonceLoopChecked target (beBytes 8 packetNumber) 8 0 iv

/-- `packet[pn_offset + i] ^ mask[1 + i]`. -/
def maskedByteChecked (target : Target) (packet mask : Bytes) (pnOffset i : ℕ) :
    Guarded UdpSniffError UInt8 := do
  let j ← sumBelow target.usizeEnd pnOffset i
  let a ← getAt packet j
  let k ← sumBelow target.usizeEnd 1 i
  let b ← getAt mask k
  pure (a ^^^ b)

/-- The loop that writes `pn_bytes`. -/
def pnBytesLoopChecked (target : Target) (packet mask : Bytes) (pnOffset pnLen : ℕ) :
    ℕ → ℕ → Bytes → Guarded UdpSniffError Bytes
  | 0, _, pnBytes => pure pnBytes
  | rounds + 1, i, pnBytes => do
    let b ← maskedByteChecked target packet mask pnOffset i
    let base ← difference 4 pnLen
    let j ← sumBelow target.usizeEnd base i
    let pnBytes ← setAt pnBytes j b
    pnBytesLoopChecked target packet mask pnOffset pnLen rounds (i + 1) pnBytes

/-- The loop that appends the packet number to the header. -/
def headerLoopChecked (target : Target) (packet mask : Bytes) (pnOffset : ℕ) :
    ℕ → ℕ → Bytes → Guarded UdpSniffError Bytes
  | 0, _, header => pure header
  | rounds + 1, i, header => do
    let b ← maskedByteChecked target packet mask pnOffset i
    headerLoopChecked target packet mask pnOffset rounds (i + 1) (header ++ [b])

/-- `quic_remove_header_protection_and_decrypt`. -/
def quicRemoveHeaderProtectionAndDecryptChecked (target : Target) (prims : QuicPrimitives)
    (packet : Bytes) (packetStart pnOffset packetEnd : ℕ) (keys : QuicInitialKeys) :
    Guarded UdpSniffError Bytes :=
  if packet.length < packetEnd ∨ packetEnd ≤ pnOffset then throw .insufficientPrefix
  else do
    let sampleStart ← lift (target.checkedAdd pnOffset 4)
    let sampleEnd ← lift (target.checkedAdd sampleStart 16)
    if packetEnd < sampleEnd then throw .insufficientPrefix
    else do
      let sampleStart ← sumBelow target.usizeEnd pnOffset 4
      let sampleEnd ← sumBelow target.usizeEnd sampleStart 16
      let sample ← sliceAt packet sampleStart sampleEnd
      let block ← copyAt (List.replicate 16 0) 0 16 sample
      let mask := prims.aesEncryptBlock keys.hpKey block
      let first ← getAt packet packetStart
      let maskFirst ← getAt mask 0
      let firstUnprotected := first ^^^ (maskFirst &&& 0x0f)
      let pnLen := ((firstUnprotected &&& 0x03) + 1).toNat
      if pnLen = 0 ∨ 4 < pnLen then throw .protocolNotMatched
      else do
        let pnEnd ← sumBelow target.usizeEnd pnOffset pnLen
        if packetEnd < pnEnd then throw .insufficientPrefix
        else do
          let pnBytes ←
            pnBytesLoopChecked target packet mask pnOffset pnLen pnLen 0 (List.replicate 4 0)
          let headerLen ← difference pnOffset packetStart
          let _ ← sumBelow target.usizeEnd headerLen pnLen
          let header ← sliceAt packet packetStart pnOffset
          let header ← setAt header 0 firstUnprotected
          let header ← headerLoopChecked target packet mask pnOffset pnLen 0 header
          let ciphertext ← sliceAt packet pnEnd packetEnd
          if ciphertext.length < 16 then throw .insufficientPrefix
          else do
            let nonce ← quicBuildNonceChecked target keys.iv (beNat pnBytes)
            match prims.aeadDecrypt keys.key nonce ciphertext header with
            | some plaintext => pure plaintext
            | none => throw .protocolNotMatched

theorem agrees_nonceLoopChecked {pn nonce : Bytes} {rounds i : ℕ} (hpn : pn.length = 8)
    (hnonce : nonce.length = 12) (hrounds : rounds + i = 8) :
    Agrees (nonceLoopChecked target pn rounds i nonce)
      (.ok (nonce.take (4 + i) ++ List.zipWith (· ^^^ ·) (nonce.drop (4 + i)) (pn.drop i))) := by
  have husize := target.le_usizeEnd
  induction rounds generalizing i nonce with
  | zero =>
    have hdrop : pn.drop i = [] := List.drop_eq_nil_of_le (by omega)
    rw [hdrop, List.zipWith_nil_right, List.append_nil, List.take_of_length_le (by omega)]
    exact .ok _
  | succ rounds ih =>
    refine .difference (by omega) (.sumBelow (by omega) ?_)
    refine .getAt 0 (by omega) (.getAt 0 (by omega) (.setAt (by omega) ?_))
    have hi : 4 + i < nonce.length := by omega
    have hj : i < pn.length := by omega
    rw [List.getD_eq_getElem _ _ hi, List.getD_eq_getElem _ _ hj]
    have hdrop : nonce.drop (4 + i + 1) =
        (nonce.set (4 + i) (nonce[4 + i] ^^^ pn[i])).drop (4 + i + 1) :=
      (List.drop_set_of_lt (Nat.lt_succ_self _)).symm
    rw [List.drop_eq_getElem_cons hi, List.drop_eq_getElem_cons hj, List.zipWith_cons_cons,
      List.append_cons, ← take_succ_set hi, hdrop, Nat.add_assoc]
    exact ih (by rw [List.length_set, hnonce]) (by omega)

theorem agrees_quicBuildNonceChecked {iv : Bytes} {packetNumber : ℕ} (hiv : iv.length = 12) :
    Agrees (quicBuildNonceChecked target iv packetNumber) (.ok (quicBuildNonce iv packetNumber)) :=
  agrees_nonceLoopChecked (length_beBytes _ _) hiv rfl

/-- The bytes `packet[pn_offset + i] ^ mask[1 + i]` from `i` on. -/
def maskedBytes (packet mask : Bytes) (pnOffset pnLen i : ℕ) : Bytes :=
  List.zipWith (· ^^^ ·) (slice packet (pnOffset + i) (pnOffset + pnLen)) (mask.drop (1 + i))

section Masked

variable {packet mask : Bytes} {pnOffset pnLen i rounds : ℕ}

theorem maskedBytes_self : maskedBytes packet mask pnOffset pnLen pnLen = [] := by
  rw [maskedBytes, slice_self_eq_nil, List.zipWith_nil_left]

theorem maskedBytes_eq_cons (hpacket : pnOffset + i < packet.length) (hmask : 1 + i < mask.length)
    (hi : i < pnLen) : maskedBytes packet mask pnOffset pnLen i =
      (packet.getD (pnOffset + i) 0 ^^^ mask.getD (1 + i) 0) ::
        maskedBytes packet mask pnOffset pnLen (i + 1) := by
  rw [maskedBytes, slice_eq_cons hpacket (by omega), List.drop_eq_getElem_cons hmask,
    List.zipWith_cons_cons, List.getD_eq_getElem _ _ hpacket, List.getD_eq_getElem _ _ hmask]
  rfl

theorem agrees_maskedByteChecked (hsize : packet.length ≤ target.isizeMax)
    (hpacket : pnOffset + i < packet.length) (hmask : mask.length = 16) (hi : i < 4) :
    Agrees (maskedByteChecked target packet mask pnOffset i)
      (.ok (packet.getD (pnOffset + i) 0 ^^^ mask.getD (1 + i) 0)) := by
  have husize := target.isizeMax_add_lt
  refine .sumBelow (by omega) (.getAt 0 hpacket ?_)
  exact .sumBelow (by omega) (.getAt 0 (by omega) (.ok _))

theorem agrees_pnBytesLoopChecked {pnBytes : Bytes} (hsize : packet.length ≤ target.isizeMax)
    (hpacket : pnOffset + pnLen ≤ packet.length) (hmask : mask.length = 16)
    (hpnBytes : pnBytes.length = 4) (hpnLen : pnLen ≤ 4) (hrounds : rounds + i = pnLen) :
    Agrees (pnBytesLoopChecked target packet mask pnOffset pnLen rounds i pnBytes)
      (.ok (pnBytes.take (4 - pnLen + i) ++ maskedBytes packet mask pnOffset pnLen i)) := by
  have husize := target.isizeMax_add_lt
  induction rounds generalizing i pnBytes with
  | zero =>
    obtain rfl : i = pnLen := by omega
    rw [maskedBytes_self, List.append_nil, List.take_of_length_le (by omega)]
    exact .ok _
  | succ rounds ih =>
    have hj : 4 - pnLen + i < pnBytes.length := by omega
    refine .ok_bind (agrees_maskedByteChecked hsize (by omega) hmask (by omega)) ?_
    refine .difference hpnLen (.sumBelow (by omega) (.setAt hj ?_))
    have hcons : maskedBytes packet mask pnOffset pnLen i =
        (packet.getD (pnOffset + i) 0 ^^^ mask.getD (1 + i) 0) ::
          maskedBytes packet mask pnOffset pnLen (i + 1) :=
      maskedBytes_eq_cons (by omega) (by omega) (by omega)
    rw [hcons, List.append_cons, ← take_succ_set hj, Nat.add_assoc]
    exact ih (by rw [List.length_set, hpnBytes]) (by omega)

theorem agrees_headerLoopChecked {header : Bytes} (hsize : packet.length ≤ target.isizeMax)
    (hpacket : pnOffset + pnLen ≤ packet.length) (hmask : mask.length = 16) (hpnLen : pnLen ≤ 4)
    (hrounds : rounds + i = pnLen) :
    Agrees (headerLoopChecked target packet mask pnOffset rounds i header)
      (.ok (header ++ maskedBytes packet mask pnOffset pnLen i)) := by
  induction rounds generalizing i header with
  | zero =>
    obtain rfl : i = pnLen := by omega
    rw [maskedBytes_self, List.append_nil]
    exact .ok _
  | succ rounds ih =>
    refine .ok_bind (agrees_maskedByteChecked hsize (by omega) hmask (by omega)) ?_
    have hcons : header ++ maskedBytes packet mask pnOffset pnLen i =
        header ++ [packet.getD (pnOffset + i) 0 ^^^ mask.getD (1 + i) 0] ++
          maskedBytes packet mask pnOffset pnLen (i + 1) := by
      rw [maskedBytes_eq_cons (by omega) (by omega) (by omega), List.append_cons]
    rw [hcons]
    exact ih (by omega)

end Masked

theorem beNat_replicate_zero_append (k : ℕ) (l : Bytes) :
    beNat (List.replicate k 0 ++ l) = beNat l := by
  induction k with
  | zero => rfl
  | succ k ih => exact ih

theorem agrees_quicRemoveHeaderProtectionAndDecryptChecked {packet : Bytes}
    {packetStart pnOffset packetEnd : ℕ} {keys : QuicInitialKeys} (hprims : prims.Sized target)
    (hkeys : keys.iv.length = 12) (hsize : packet.length ≤ target.isizeMax)
    (hstart : packetStart < pnOffset) :
    Agrees (quicRemoveHeaderProtectionAndDecryptChecked target prims packet packetStart pnOffset
        packetEnd keys)
      (quicRemoveHeaderProtectionAndDecrypt target prims packet packetStart pnOffset packetEnd
        keys) := by
  have husize := target.isizeMax_add_lt
  refine .ite (fun _ => .error _) fun hend => ?_
  refine .bind (.lift _) fun sampleStart hsampleStart => ?_
  refine .bind (.lift _) fun sampleEnd hsampleEnd => ?_
  have hsum := checkedAdd_eq hsampleStart
  have hsum' := checkedAdd_eq hsampleEnd
  subst hsum hsum'
  refine .ite (fun _ => .error _) fun hsample => .sumBelow (by omega) (.sumBelow (by omega) ?_)
  refine .sliceAt (by omega) (by omega) ?_
  have hblock : (slice packet (pnOffset + 4) (pnOffset + 4 + 16)).length = 16 := by
    rw [length_slice (by omega)]
    omega
  refine .copyAt (List.length_replicate.ge) (by rw [hblock]) ?_
  rw [overwrite_zero (by rw [hblock, List.length_replicate])]
  generalize hmask : prims.aesEncryptBlock keys.hpKey
    (slice packet (pnOffset + 4) (pnOffset + 4 + 16)) = mask
  have hlength : mask.length = 16 := hmask ▸ hprims.aesEncryptBlock _ _
  refine .getAt 0 (by omega) (.getAt 0 (by omega) ?_)
  dsimp only
  generalize packet.getD packetStart 0 ^^^ (mask.getD 0 0 &&& 0x0f) = firstUnprotected
  generalize ((firstUnprotected &&& 0x03) + 1).toNat = pnLen
  refine .ite (fun _ => .error _) fun hpnLen => .sumBelow (by omega) ?_
  refine .ite (fun _ => .error _) fun hpnEnd => ?_
  have hpn : Agrees
      (pnBytesLoopChecked target packet mask pnOffset pnLen pnLen 0 (List.replicate 4 0))
      (.ok ((List.replicate 4 0).take (4 - pnLen + 0) ++
        maskedBytes packet mask pnOffset pnLen 0)) :=
    agrees_pnBytesLoopChecked hsize (by omega) hlength List.length_replicate (by omega) rfl
  have hheader : Agrees
      (headerLoopChecked target packet mask pnOffset pnLen 0
        ((slice packet packetStart pnOffset).set 0 firstUnprotected))
      (.ok ((slice packet packetStart pnOffset).set 0 firstUnprotected ++
        maskedBytes packet mask pnOffset pnLen 0)) :=
    agrees_headerLoopChecked hsize (by omega) hlength (by omega) rfl
  refine .ok_bind hpn (.difference hstart.le (.sumBelow (by omega) ?_))
  refine .sliceAt hstart.le (by omega) (.setAt ?_ (.ok_bind hheader ?_))
  · rw [length_slice (by omega)]
    omega
  refine .sliceAt (by omega) (by omega) (.ite (fun _ => .error _) fun _ => ?_)
  rw [List.take_replicate, beNat_replicate_zero_append]
  refine .ok_bind (agrees_quicBuildNonceChecked hkeys) ?_
  have hbytes : List.zipWith (· ^^^ ·) (slice packet pnOffset (pnOffset + pnLen)) (mask.drop 1) =
      maskedBytes packet mask pnOffset pnLen 0 := rfl
  rw [hbytes]
  cases prims.aeadDecrypt keys.key
    (quicBuildNonce keys.iv (beNat (maskedBytes packet mask pnOffset pnLen 0)))
    (slice packet (pnOffset + pnLen) packetEnd)
    ((slice packet packetStart pnOffset).set 0 firstUnprotected ++
      maskedBytes packet mask pnOffset pnLen 0) with
  | none => exact .error _
  | some plaintext => exact .ok _

/-! ### One packet -/

/-- `quic_read_u32`. -/
def quicReadU32Checked (target : Target) (buf : Bytes) (off : ℕ) : Guarded UdpSniffError ℕ := do
  let stop ← sumBelow target.usizeEnd off 4
  if buf.length < stop then throw .insufficientPrefix
  else do
    let b0 ← getAt buf off
    let i1 ← sumBelow target.usizeEnd off 1
    let b1 ← getAt buf i1
    let i2 ← sumBelow target.usizeEnd off 2
    let b2 ← getAt buf i2
    let i3 ← sumBelow target.usizeEnd off 3
    let b3 ← getAt buf i3
    pure (beNat [b0, b1, b2, b3])

/-- The header of an Initial packet up to its destination connection id. -/
def quicParseInitialHeaderChecked (target : Target) (datagram : Bytes) (packetStart : ℕ) :
    Guarded UdpSniffError (ℕ × Bytes × ℕ) :=
  if datagram.length ≤ packetStart then throw .insufficientPrefix
  else do
    let first ← getAt datagram packetStart
    if first &&& 0x80 = 0 ∨ first &&& 0x40 = 0 then throw .protocolNotMatched
    else do
      let off ← sumBelow target.usizeEnd packetStart 1
      let version ← quicReadU32Checked target datagram off
      let off ← sumBelow target.usizeEnd off 4
      if (quicInitialSalt version).isNone then throw .protocolNotMatched
      else if !isInitial version first then throw .protocolNotMatched
      else
        match datagram[off]? with
        | none => throw .insufficientPrefix
        | some dcidLen => do
          let off ← sumBelow target.usizeEnd off 1
          if 20 < dcidLen.toNat then throw .protocolNotMatched
          else do
            let stop ← sumBelow target.usizeEnd off dcidLen.toNat
            if datagram.length < stop then throw .insufficientPrefix
            else do
              let dcid ← sliceAt datagram off stop
              pure (version, dcid, stop)

/-- The rest of the header. -/
def quicParseInitialLengthsChecked (target : Target) (datagram : Bytes) (off : ℕ) :
    Guarded UdpSniffError (ℕ × ℕ) :=
  match datagram[off]? with
  | none => throw .insufficientPrefix
  | some scidLen => do
    let off ← sumBelow target.usizeEnd off 1
    if 20 < scidLen.toNat then throw .protocolNotMatched
    else do
      let off ← sumBelow target.usizeEnd off scidLen.toNat
      if datagram.length < off then throw .insufficientPrefix
      else do
        let (tokenLen, off) ← quicReadVarintChecked target datagram off
        let tokenLen ← lift (target.usizeTryFrom tokenLen)
        let tokenEnd ← lift (target.checkedAdd off tokenLen)
        if datagram.length < tokenEnd then throw .insufficientPrefix
        else do
          let (protectedLen, pnOffset) ← quicReadVarintChecked target datagram tokenEnd
          let protectedLen := target.asUsize protectedLen
          if protectedLen = 0 then throw .protocolNotMatched
          else do
            let packetEnd ← lift (target.checkedAdd pnOffset protectedLen)
            if datagram.length < packetEnd then throw .insufficientPrefix
            else pure (pnOffset, packetEnd)

/-- `quic_parse_one_initial_packet`. -/
def quicParseOneInitialPacketChecked (target : Target) (prims : QuicPrimitives)
    (datagram : Bytes) (packetStart : ℕ) (crypto : QuicCryptoReassembly) :
    Option (Except UdpSniffError ℕ × QuicCryptoReassembly) := do
  match ← (quicParseInitialHeaderChecked target datagram packetStart).run with
  | .error e => some (.error e, crypto)
  | .ok (version, dcid, off) => do
    let crypto := crypto.noteDcid dcid
    match ← (quicParseInitialLengthsChecked target datagram off).run with
    | .error e => some (.error e, crypto)
    | .ok (pnOffset, packetEnd) => do
      let plaintext : Guarded UdpSniffError Bytes := do
        let keys ← deriveQuicInitialKeysChecked target prims version dcid
        quicRemoveHeaderProtectionAndDecryptChecked target prims datagram packetStart pnOffset
          packetEnd keys
      match ← plaintext.run with
      | .error e => some (.error e, crypto)
      | .ok frames =>
        match ← quicParseInitialFramesChecked target frames crypto with
        | (.error e, crypto) => some (.error e, crypto)
        | (.ok (), crypto) => some (.ok packetEnd, crypto)

section Packet

variable {datagram : Bytes} {off packetStart : ℕ} {crypto : QuicCryptoReassembly}

theorem agrees_quicReadU32Checked (hsize : datagram.length ≤ target.isizeMax)
    (hoff : off ≤ datagram.length) :
    Agrees (quicReadU32Checked target datagram off) (quicReadU32 datagram off) := by
  have husize := target.isizeMax_add_lt
  refine .sumBelow (by omega) (.ite (fun _ => .error _) fun hfour => .getAt 0 (by omega) ?_)
  refine .sumBelow (by omega) (.getAt 0 (by omega) (.sumBelow (by omega) (.getAt 0 (by omega) ?_)))
  refine .sumBelow (by omega) (.getAt 0 (by omega) ?_)
  have h0 : off < datagram.length := by omega
  have h1 : off + 1 < datagram.length := by omega
  have h2 : off + 2 < datagram.length := by omega
  have h3 : off + 3 < datagram.length := by omega
  rw [slice_eq_cons h0 (by omega), slice_eq_cons h1 (by omega), slice_eq_cons h2 (by omega),
    slice_eq_cons h3 (by omega), slice_self_eq_nil, List.getD_eq_getElem _ _ h0,
    List.getD_eq_getElem _ _ h1, List.getD_eq_getElem _ _ h2, List.getD_eq_getElem _ _ h3]
  exact .ok _

theorem agrees_quicParseInitialHeaderChecked (hsize : datagram.length ≤ target.isizeMax) :
    Agrees (quicParseInitialHeaderChecked target datagram packetStart)
      (quicParseInitialHeader datagram packetStart) := by
  have husize := target.isizeMax_add_lt
  unfold quicParseInitialHeaderChecked quicParseInitialHeader
  split_ifs with hstart
  · rw [List.getElem?_eq_none hstart]
    exact .error _
  have hlt : packetStart < datagram.length := not_le.mp hstart
  rw [List.getElem?_eq_getElem hlt]
  refine .getAt 0 hlt ?_
  rw [List.getD_eq_getElem _ _ hlt]
  refine .ite (fun _ => .error _) fun _ => .sumBelow (by omega) ?_
  refine .bind (agrees_quicReadU32Checked hsize (by omega)) fun version _ => ?_
  refine .sumBelow (by omega) ?_
  refine .ite (fun _ => .error _) fun _ => .ite (fun _ => .error _) fun _ => ?_
  dsimp only
  cases hdcidLen : datagram[packetStart + 1 + 4]? with
  | none => exact .error _
  | some dcidLen =>
    have hoff : packetStart + 1 + 4 < datagram.length := (List.getElem?_eq_some_iff.mp hdcidLen).1
    refine .sumBelow (by omega) (.ite (fun _ => .error _) fun htwenty => .sumBelow (by omega) ?_)
    exact .ite (fun _ => .error _) fun hend => .sliceAt (by omega) (by omega) (.ok _)

theorem agrees_quicParseInitialLengthsChecked (hsize : datagram.length ≤ target.isizeMax) :
    Agrees (quicParseInitialLengthsChecked target datagram off)
      (quicParseInitialLengths target datagram off) := by
  have husize := target.isizeMax_add_lt
  unfold quicParseInitialLengthsChecked quicParseInitialLengths
  cases hscidLen : datagram[off]? with
  | none => exact .error _
  | some scidLen =>
    have hoff : off < datagram.length := (List.getElem?_eq_some_iff.mp hscidLen).1
    refine .sumBelow (by omega) (.ite (fun _ => .error _) fun htwenty => .sumBelow (by omega) ?_)
    refine .ite (fun _ => .error _) fun _ => ?_
    refine .bind (agrees_quicReadVarintChecked hsize) fun tokenLen _ => ?_
    refine .bind (.lift _) fun tokenLen' _ => .bind (.lift _) fun tokenEnd _ => ?_
    refine .ite (fun _ => .error _) fun _ => ?_
    refine .bind (agrees_quicReadVarintChecked hsize) fun protectedLen _ => ?_
    refine .ite (fun _ => .error _) fun _ => .bind (.lift _) fun packetEnd _ => ?_
    exact .ite (fun _ => .error _) fun _ => .ok _

/-! ### The offset moves forward -/

theorem returns_quicParseInitialHeader (datagram : Bytes) (packetStart : ℕ) :
    Returns (fun r => packetStart < r.2.2) (quicParseInitialHeader datagram packetStart) := by
  unfold quicParseInitialHeader
  cases datagram[packetStart]? with
  | none => exact .error _
  | some first =>
    refine .ite (fun _ => .error _) fun _ => .bind fun version _ => ?_
    refine .ite (fun _ => .error _) fun _ => .ite (fun _ => .error _) fun _ => ?_
    dsimp only
    cases datagram[packetStart + 1 + 4]? with
    | none => exact .error _
    | some dcidLen =>
      refine .ite (fun _ => .error _) fun _ => .ite (fun _ => .error _) fun _ => .ok ?_
      dsimp only
      omega

theorem returns_quicParseInitialLengths (target : Target) (datagram : Bytes) (off : ℕ) :
    Returns (fun r => off < r.1 ∧ r.1 < r.2 ∧ r.2 ≤ datagram.length)
      (quicParseInitialLengths target datagram off) := by
  unfold quicParseInitialLengths
  cases datagram[off]? with
  | none => exact .error _
  | some scidLen =>
    refine .ite (fun _ => .error _) fun _ => .ite (fun _ => .error _) fun _ => ?_
    refine .bind fun tokenLen htokenLen => .bind fun tokenLen' _ => .bind fun tokenEnd htoken => ?_
    refine .ite (fun _ => .error _) fun _ => .bind fun protectedLen hprotectedLen => ?_
    refine .ite (fun _ => .error _) fun hne => .bind fun packetEnd hpacketEnd => ?_
    refine .ite (fun _ => .error _) fun hend => .ok ?_
    have h1 := returns_quicReadVarint _ _ _ htokenLen
    have h2 := returns_quicReadVarint _ _ _ hprotectedLen
    have h3 := checkedAdd_eq htoken
    have h4 := checkedAdd_eq hpacketEnd
    dsimp only
    omega

/-- **Progress.** A packet that is parsed ends behind its beginning, within the datagram. -/
theorem returns_quicParseOneInitialPacket (target : Target) (prims : QuicPrimitives)
    (datagram : Bytes) (packetStart : ℕ) (crypto : QuicCryptoReassembly) :
    Returns (fun next => packetStart < next ∧ next ≤ datagram.length)
      (quicParseOneInitialPacket target prims datagram packetStart crypto).1 := by
  unfold quicParseOneInitialPacket
  cases hheader : quicParseInitialHeader datagram packetStart with
  | error e => exact .error _
  | ok header =>
    obtain ⟨version, dcid, off⟩ := header
    have hoff := returns_quicParseInitialHeader _ _ _ hheader
    dsimp only at hoff ⊢
    cases hlengths : quicParseInitialLengths target datagram off with
    | error e => exact .error _
    | ok lengths =>
      obtain ⟨pnOffset, packetEnd⟩ := lengths
      have hend := returns_quicParseInitialLengths _ _ _ _ hlengths
      dsimp only at hend ⊢
      split
      · exact .error _
      · rename_i frames hframes
        generalize quicParseInitialFrames target frames (crypto.noteDcid dcid) = parsed
        rcases parsed with ⟨e | u, crypto'⟩
        · exact .error _
        · exact .ok (by omega)

theorem wf_noteDcid (h : crypto.Wf) (dcid : Bytes) : (crypto.noteDcid dcid).Wf := by
  unfold QuicCryptoReassembly.noteDcid
  split
  · split_ifs
    · exact h
    · exact ⟨rfl, Nat.zero_le _, le_rfl, fun i hi => absurd hi (Nat.not_lt_zero i),
        by simp [QuicCryptoReassembly.reset]⟩
  · exact ⟨h.length_eq, h.le_cap, h.contiguous_le, h.contiguous, h.gap⟩

/-- A packet keeps the invariant of the reassembly buffer. -/
theorem wf_quicParseOneInitialPacket (h : crypto.Wf) :
    (quicParseOneInitialPacket target prims datagram packetStart crypto).2.Wf := by
  unfold quicParseOneInitialPacket
  cases quicParseInitialHeader datagram packetStart with
  | error e => exact h
  | ok header =>
    obtain ⟨version, dcid, off⟩ := header
    have hnote := wf_noteDcid h dcid
    dsimp only
    cases quicParseInitialLengths target datagram off with
    | error e => exact hnote
    | ok lengths =>
      obtain ⟨pnOffset, packetEnd⟩ := lengths
      dsimp only
      split
      · exact hnote
      · rename_i frames hframes
        have hwf : (quicParseInitialFrames target frames (crypto.noteDcid dcid)).2.Wf :=
          wf_framesLoop hnote
        generalize quicParseInitialFrames target frames (crypto.noteDcid dcid) = parsed at hwf ⊢
        rcases parsed with ⟨e | u, crypto'⟩
        · exact hwf
        · exact hwf

theorem returns_plaintext {target' : Target} (hprims : prims.Sized target')
    {pnOffset packetEnd : ℕ} {keys : QuicInitialKeys} :
    Returns (fun frames => frames.length ≤ target'.isizeMax)
      (quicRemoveHeaderProtectionAndDecrypt target prims datagram packetStart pnOffset packetEnd
        keys) := by
  refine .ite (fun _ => .error _) fun _ => .bind fun sampleStart _ => .bind fun sampleEnd _ => ?_
  refine .ite (fun _ => .error _) fun _ => .ite (fun _ => .error _) fun _ => ?_
  refine .ite (fun _ => .error _) fun _ => .ite (fun _ => .error _) fun _ => ?_
  dsimp only
  split
  · rename_i plaintext hplaintext
    exact .ok (hprims.aeadDecrypt _ _ _ _ _ hplaintext)
  · exact .error _

/-- **A packet.** It is parsed in bounds. -/
theorem quicParseOneInitialPacketChecked_eq (hprims : prims.Sized target)
    (hsize : datagram.length ≤ target.isizeMax) (h : crypto.Wf) :
    quicParseOneInitialPacketChecked target prims datagram packetStart crypto =
      some (quicParseOneInitialPacket target prims datagram packetStart crypto) := by
  refine ((agrees_quicParseInitialHeaderChecked hsize).run_bind _).trans ?_
  unfold quicParseOneInitialPacket
  cases hheader : quicParseInitialHeader datagram packetStart with
  | error e => rfl
  | ok header =>
    obtain ⟨version, dcid, off⟩ := header
    have hoff := returns_quicParseInitialHeader _ _ _ hheader
    dsimp only at hoff ⊢
    refine ((agrees_quicParseInitialLengthsChecked hsize).run_bind _).trans ?_
    cases hlengths : quicParseInitialLengths target datagram off with
    | error e => rfl
    | ok lengths =>
      obtain ⟨pnOffset, packetEnd⟩ := lengths
      have hend := returns_quicParseInitialLengths _ _ _ _ hlengths
      dsimp only at hend ⊢
      have hplaintext : Agrees
          (deriveQuicInitialKeysChecked target prims version dcid >>= fun keys =>
            quicRemoveHeaderProtectionAndDecryptChecked target prims datagram packetStart pnOffset
              packetEnd keys)
          (deriveQuicInitialKeys prims version dcid >>= fun keys =>
            quicRemoveHeaderProtectionAndDecrypt target prims datagram packetStart pnOffset
              packetEnd keys) := by
        refine .bind agrees_deriveQuicInitialKeysChecked fun keys hkeys => ?_
        exact agrees_quicRemoveHeaderProtectionAndDecryptChecked hprims
          (returns_deriveQuicInitialKeys hprims _ _ _ hkeys) hsize (by omega)
      refine (hplaintext.run_bind _).trans ?_
      cases hopened : deriveQuicInitialKeys prims version dcid >>= fun keys =>
          quicRemoveHeaderProtectionAndDecrypt target prims datagram packetStart pnOffset
            packetEnd keys with
      | error e => rfl
      | ok frames =>
        obtain ⟨keys, -, hframes⟩ := bind_eq_ok_iff.mp hopened
        have hlength := returns_plaintext hprims _ hframes
        dsimp only
        rw [quicParseInitialFramesChecked_eq hlength (wf_noteDcid h dcid), Option.bind_eq_bind,
          Option.bind_some]
        generalize quicParseInitialFrames target frames (crypto.noteDcid dcid) = parsed
        rcases parsed with ⟨e | u, crypto'⟩
        · rfl
        · rfl

end Packet

/-! ### Datagrams -/

/-- `be_u24`. -/
def beU24Checked (b : Bytes) : Guarded TlsSniffError ℕ :=
  if b.length < 3 then throw .parseError
  else do
    let high ← getAt b 0
    let middle ← getAt b 1
    let low ← getAt b 2
    pure (beNat [high, middle, low])

/-- `quic_parse_tls_client_hello_from_crypto`. -/
def quicParseTlsClientHelloFromCryptoChecked (target : Target) (crypto : Bytes) :
    Guarded UdpSniffError Str :=
  if crypto.length < 4 then throw .insufficientPrefix
  else do
    let first ← getAt crypto 0
    if first ≠ 0x01 then throw .protocolNotMatched
    else do
      let lengthBytes ← sliceAt crypto 1 4
      let hsLen ← ExceptT.adapt (fun _ => .parseError) (beU24Checked lengthBytes)
      let total ← lift (target.checkedAdd 4 hsLen)
      if quicCryptoReassemblyCap < total then throw .tooLarge
      else if crypto.length < total then throw .insufficientPrefix
      else do
        let body ← sliceAt crypto 4 total
        ExceptT.adapt TlsSniffError.toUdp (parseSniChecked target.usizeEnd body)

/-- The loop over the packets of a datagram. -/
def datagramLoopChecked (target : Target) (prims : QuicPrimitives) (datagram : Bytes) :
    ℕ → ℕ → Bool → QuicCryptoReassembly →
      Option (Except UdpSniffError Str × QuicCryptoReassembly)
  | 0, _, _, _ => none
  | rounds + 1, off, sawInitial, crypto =>
    if datagram.length ≤ off then
      some (.error (if sawInitial then .insufficientPrefix else .protocolNotMatched), crypto)
    else do
      match ← quicParseOneInitialPacketChecked target prims datagram off crypto with
      | (.ok nextOff, crypto) => do
        let hello : Guarded UdpSniffError Str := do
          let contiguous ← crypto.contiguousChecked
          quicParseTlsClientHelloFromCryptoChecked target contiguous
        match ← hello.run with
        | .ok host => some (.ok host, crypto)
        | .error .insufficientPrefix =>
          datagramLoopChecked target prims datagram rounds nextOff true crypto
        | .error e => some (.error e, crypto)
      | (.error .protocolNotMatched, crypto) =>
        some (.error (if sawInitial then .insufficientPrefix else .protocolNotMatched), crypto)
      | (.error e, crypto) => some (.error e, crypto)

/-- `sniff_quic_sni_from_datagram_with_reassembly`. -/
def sniffChecked (target : Target) (prims : QuicPrimitives) (datagram : Bytes)
    (crypto : QuicCryptoReassembly) :
    Option (Except UdpSniffError Str × QuicCryptoReassembly) :=
  if datagram.isEmpty then some (.error .insufficientPrefix, crypto)
  else do
    let capped : Guarded UdpSniffError (Bytes × UInt8) := do
      let datagram ← sliceAt datagram 0 (min datagram.length quicSniInputCap)
      let first ← getAt datagram 0
      pure (datagram, first)
    match ← capped.run with
    | .error e => some (.error e, crypto)
    | .ok (datagram, first) =>
      if first &&& 0x80 = 0 ∨ first &&& 0x40 = 0 then some (.error .protocolNotMatched, crypto)
      else datagramLoopChecked target prims datagram (datagram.length + 1) 0 false crypto

section Datagram

variable {datagram : Bytes} {off : ℕ} {crypto : QuicCryptoReassembly}

theorem agrees_beU24Checked (b : Bytes) : Agrees (beU24Checked b) (beU24 b) := by
  refine .ite (fun _ => .error _) fun hlen => ?_
  rcases b with _ | ⟨x, _ | ⟨y, _ | ⟨z, rest⟩⟩⟩
  · exact absurd (by simp) hlen
  · exact absurd (by simp) hlen
  · exact absurd (by simp) hlen
  · exact .getAt 0 (by simp) (.getAt 0 (by simp) (.getAt 0 (by simp) (.ok _)))

theorem beU24_lt {b : Bytes} {n : ℕ} (h : beU24 b = .ok n) : n < 2 ^ 24 := by
  unfold beU24 at h
  split_ifs at h with hlen
  obtain rfl := Except.ok.inj h
  have hthree : (b.take 3).length = 3 := by
    rw [List.length_take]
    omega
  exact (beNat_lt _).trans_eq (by rw [hthree]; rfl)

theorem agrees_quicParseTlsClientHelloFromCryptoChecked (message : Bytes) :
    Agrees (quicParseTlsClientHelloFromCryptoChecked target message)
      (quicParseTlsClientHelloFromCrypto message) := by
  have husize := target.le_usizeEnd
  have hcap : quicCryptoReassemblyCap < 2 ^ 16 := by decide
  refine .ite (fun _ => .error _) fun hfour => .getAt 0 (by omega) ?_
  refine .ite (fun _ => .error _) fun _ => .sliceAt (by omega) (by omega) ?_
  have hlength := (agrees_beU24Checked (slice message 1 4)).adapt
    fun _ => UdpSniffError.parseError
  cases hhsLen : beU24 (slice message 1 4) with
  | error e =>
    rw [hhsLen] at hlength
    exact .error_bind hlength
  | ok hsLen =>
    rw [hhsLen] at hlength
    have hlt : hsLen < 2 ^ 24 := beU24_lt hhsLen
    have htotal : target.checkedAdd 4 hsLen = .ok (4 + hsLen) :=
      Target.checkedAdd_of_lt (by omega)
    refine .ok_bind hlength ?_
    rw [htotal]
    refine .ok_bind (.lift _) (.ite (fun _ => .error _) fun hcap' => ?_)
    refine .ite (fun _ => .error _) fun htotal' => .sliceAt (by omega) (by omega) ?_
    have hbody : (slice message 4 (4 + hsLen)).length + 2 ^ 17 ≤ target.usizeEnd := by
      rw [length_slice (by omega)]
      omega
    have hparse := (agrees_parseSniChecked hbody).adapt TlsSniffError.toUdp
    cases hsni : parseSniFromClientHelloBody (slice message 4 (4 + hsLen)) with
    | error e =>
      rw [hsni] at hparse
      exact hparse
    | ok host =>
      rw [hsni] at hparse
      exact hparse

/-- **The loop over the packets.** A round for each byte is enough, and every round is in bounds. -/
theorem datagramLoopChecked_eq {rounds : ℕ} {sawInitial : Bool} (hprims : prims.Sized target)
    (hsize : datagram.length ≤ target.isizeMax) (h : crypto.Wf)
    (hrounds : datagram.length ≤ off + rounds) :
    datagramLoopChecked target prims datagram (rounds + 1) off sawInitial crypto =
      some (datagramLoop target prims datagram rounds off sawInitial crypto) := by
  induction rounds generalizing off sawInitial crypto with
  | zero =>
    rw [datagramLoopChecked, if_pos (by omega)]
    rfl
  | succ rounds ih =>
    rw [datagramLoopChecked, datagramLoop]
    by_cases hend : datagram.length ≤ off
    · rw [if_pos hend, if_pos hend]
    rw [if_neg hend, if_neg hend]
    have hnext := returns_quicParseOneInitialPacket target prims datagram off crypto
    have hwf : (quicParseOneInitialPacket target prims datagram off crypto).2.Wf :=
      wf_quicParseOneInitialPacket h
    rw [quicParseOneInitialPacketChecked_eq hprims hsize h, Option.bind_eq_bind, Option.bind_some]
    generalize quicParseOneInitialPacket target prims datagram off crypto = parsed at hnext hwf ⊢
    rcases parsed with ⟨e | next, crypto'⟩
    · cases e <;> rfl
    · have hmoved := hnext next rfl
      have hhello : Agrees
          (crypto'.contiguousChecked >>= fun contiguous =>
            quicParseTlsClientHelloFromCryptoChecked target contiguous)
          (quicParseTlsClientHelloFromCrypto crypto'.contiguous) :=
        .ok_bind (QuicCryptoReassembly.agrees_contiguousChecked hwf)
          (agrees_quicParseTlsClientHelloFromCryptoChecked _)
      refine (hhello.run_bind _).trans ?_
      dsimp only
      rcases quicParseTlsClientHelloFromCrypto crypto'.contiguous with e | host
      · cases e with
        | insufficientPrefix => exact ih hwf (by omega)
        | protocolNotMatched | noTarget | parseError | invalidHostname | tooLarge => rfl
      · rfl

/-- **The parser is in bounds.** Every index, slice and sum of the checked parser is in range, and
every loop ends within its rounds. -/
theorem sniffChecked_eq (hprims : prims.Sized target) (h : crypto.Wf) :
    sniffChecked target prims datagram crypto =
      some (sniffQuicSniFromDatagramWithReassembly target prims datagram crypto) := by
  unfold sniffChecked sniffQuicSniFromDatagramWithReassembly
  cases hd : datagram with
  | nil => rfl
  | cons x xs =>
    obtain ⟨first, rest, htake⟩ : ∃ first rest, datagram.take quicSniInputCap = first :: rest :=
      ⟨x, xs.take 16383, by rw [hd]; rfl⟩
    have hslice : slice datagram 0 (min datagram.length quicSniInputCap) = first :: rest := by
      rw [slice, List.drop_zero, Nat.sub_zero, min_comm, ← List.take_eq_take_min, htake]
    have hcapped : Agrees
        (sliceAt datagram 0 (min datagram.length quicSniInputCap) >>= fun datagram =>
          getAt datagram 0 >>= fun first => pure (datagram, first))
        (.ok (first :: rest, first) : Except UdpSniffError (Bytes × UInt8)) := by
      refine .sliceAt (Nat.zero_le _) (min_le_left _ _) ?_
      rw [hslice]
      exact .getAt 0 (Nat.succ_pos _) (.ok _)
    rw [← hd, htake, hd, List.isEmpty_cons, if_neg Bool.false_ne_true, ← hd]
    refine (hcapped.run_bind _).trans ?_
    dsimp only
    split_ifs
    · rfl
    have hsize : (first :: rest).length ≤ target.isizeMax := by
      rw [← htake, List.length_take]
      have hcap : quicSniInputCap ≤ target.isizeMax := by cases target <;> decide
      omega
    exact datagramLoopChecked_eq hprims hsize h (Nat.le_add_left _ _)

/-- The state of a session keeps its invariant. -/
theorem wf_datagramLoop {fuel : ℕ} {sawInitial : Bool} (h : crypto.Wf) :
    (datagramLoop target prims datagram fuel off sawInitial crypto).2.Wf := by
  induction fuel generalizing off sawInitial crypto with
  | zero => exact h
  | succ fuel ih =>
    rw [datagramLoop]
    by_cases hend : datagram.length ≤ off
    · rw [if_pos hend]
      exact h
    rw [if_neg hend]
    have hwf : (quicParseOneInitialPacket target prims datagram off crypto).2.Wf :=
      wf_quicParseOneInitialPacket h
    generalize quicParseOneInitialPacket target prims datagram off crypto = parsed at hwf ⊢
    rcases parsed with ⟨e | next, crypto'⟩
    · cases e <;> exact hwf
    · dsimp only
      rcases quicParseTlsClientHelloFromCrypto crypto'.contiguous with e | host
      · cases e with
        | insufficientPrefix => exact ih hwf
        | protocolNotMatched | noTarget | parseError | invalidHostname | tooLarge => exact hwf
      · exact hwf

theorem wf_sniff (h : crypto.Wf) :
    (sniffQuicSniFromDatagramWithReassembly target prims datagram crypto).2.Wf := by
  unfold sniffQuicSniFromDatagramWithReassembly
  split
  · exact h
  · split_ifs
    · exact h
    · exact wf_datagramLoop h

end Datagram

/-- Sniffing one datagram of a flow; HKDF, AES and AES-GCM may answer differently every time. -/
def sniffWith (target : Target) (crypto : QuicCryptoReassembly) (a : QuicPrimitives × Bytes) :
    Option QuicCryptoReassembly :=
  some (sniffQuicSniFromDatagramWithReassembly target a.1 a.2 crypto).2

/-- **The parser is total.** In every state that a flow can reach, and for every datagram, the
checked parser has a result, that of the parser: it ends, no access is out of bounds and no sum out
of range. A packet that is parsed ends behind its beginning. The loop over the ranges of an ACK
frame completes at most as many rounds as there are bytes left, whatever number is announced, and
begins at most half as many and one more. -/
theorem quic_total {crypto : QuicCryptoReassembly} (hprims : prims.Sized target)
    (hreach : Reachable (sniffWith target) {} crypto) (datagram : Bytes) :
    sniffChecked target prims datagram crypto =
      some (sniffQuicSniFromDatagramWithReassembly target prims datagram crypto) ∧
    (∀ (datagram : Bytes) (off next : ℕ) (c c' : QuicCryptoReassembly),
      quicParseOneInitialPacket target prims datagram off c = (.ok next, c') →
        off < next ∧ next ≤ datagram.length) ∧
    ∀ (frames : Bytes) (off count : ℕ), off ≤ frames.length →
      ackRounds frames count off ≤ frames.length - off ∧
      (∀ stop, skipAckRanges frames count off = .ok stop → ackRounds frames count off = count) ∧
      (frames.length ≤ target.isizeMax →
        Agrees (skipAckRangesChecked target frames ((frames.length - off) / 2 + 1) count off)
          (skipAckRanges frames count off)) := by
  have hwf : crypto.Wf := by
    refine hreach.invariant QuicCryptoReassembly.wf_new fun c a c' hc _ hstep => ?_
    obtain rfl := Option.some.inj hstep
    exact wf_sniff hc
  refine ⟨sniffChecked_eq hprims hwf, fun datagram off next c c' hparse => ?_,
    fun frames off count hoff => ⟨?_, fun stop hstop => ackRounds_of_skipAckRanges hstop,
      fun hframes => agrees_skipAckRangesChecked hframes hoff (by omega)⟩⟩
  · exact returns_quicParseOneInitialPacket target prims datagram off c next (by rw [hparse])
  · have hrounds : 2 * ackRounds frames count off ≤ frames.length - off :=
      two_mul_ackRounds_le hoff
    omega

/-- The primitives of the sample connection, with a block for every key and block. -/
def sizedPrimitives : QuicPrimitives :=
  { samplePrimitives with
    aesEncryptBlock := fun key block => (samplePrimitives.aesEncryptBlock key block).takeD 16 0 }

/-- A value found in a table has the property of the values of the table. -/
theorem lookup_forall {α β : Type} [BEq α] {P : α → β → Prop} [LawfulBEq α] {l : List (α × β)}
    {a : α} {b : β} (hl : ∀ e ∈ l, P e.1 e.2) (h : l.lookup a = some b) : P a b := by
  obtain ⟨before, after, rfl, -⟩ := List.lookup_eq_some_iff.mp h
  exact hl (a, b) (by simp)

theorem sizedPrimitives_sized (target : Target) : sizedPrimitives.Sized target where
  hkdfExpand secret info outLen out h :=
    lookup_forall (P := fun key out => out.length = key.2.2) (by decide +kernel) h
  aesEncryptBlock key block := List.takeD_length _ _ _
  aeadDecrypt key nonce ciphertext header plaintext h :=
    lookup_forall (P := fun _ plaintext => plaintext.length ≤ target.isizeMax)
      (by cases target <;> decide +kernel) h

/-- The second datagram of the sample connection completes the ClientHello. -/
theorem quic_total_sample :
    (sniffChecked .bits64 sizedPrimitives sampleSecond.encode
      (sniffQuicSniFromDatagramWithReassembly .bits64 sizedPrimitives sampleFirst.encode {}).2).map
        Prod.fst = some (.ok [0x61, 0x2e, 0x69, 0x6f]) := by
  have hreach : Reachable (sniffWith .bits64) {}
      (sniffQuicSniFromDatagramWithReassembly .bits64 sizedPrimitives sampleFirst.encode {}).2 :=
    .tail (a := (sizedPrimitives, sampleFirst.encode)) .refl trivial rfl
  rw [(quic_total (sizedPrimitives_sized .bits64) hreach sampleSecond.encode).1]
  decide +kernel

end XtpRs.Sniff
