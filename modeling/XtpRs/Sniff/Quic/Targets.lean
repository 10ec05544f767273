import XtpRs.Sniff.Quic.PacketBounds
import XtpRs.Sniff.Quic.Unauthenticated

/-!
# The sniffer on 32-bit and on 64-bit targets

The lengths in QUIC packets are integers of up to 62 bits, which do not always fit into `usize`.
All but one are converted by `usize::try_from`, which rejects what does not fit. The length of an
Initial packet is cast by `as usize`, which keeps the lower 32 bits on a 32-bit target. A packet
whose length only fits by that is parsed there and rejected on a 64-bit target.

Below, the parser is stated over numbers of any size, up to the conversion of that one length. The
code on either target succeeds as that parser does with the conversion of the target.

## Main definitions

* `fullCryptoFrame`, `fullConnectionCloseFrame`, `fullPacketLengths`: the lengths at full value.
* `PacketStep`, `Reaches`: the packets that the loop over a datagram comes to.
* `SameOnTargets`: the hosts are the same, and every length is used at its full value or rejected.
* `truncates`: a packet with a length that only fits when it is cut off.

## Main results

* `okState_framesLoop`: frames are parsed alike on both targets.
* `sniff_eq_ok_iff`: the hosts found, in terms of the packets that are reached.
* `sameOnTargets_iff`: the targets agree exactly where no packet is reached that truncates.
-/

namespace XtpRs.Sniff

open Lib

variable {target : Target} {prims : QuicPrimitives} {frames datagram : Bytes} {off : ℕ}
  {crypto : QuicCryptoReassembly}

/-! ### Lengths at full value -/

/-- The end of a CONNECTION_CLOSE frame. -/
def fullConnectionCloseFrame (frames : Bytes) (off : ℕ) : Option ℕ := do
  let (_, off) ← (quicReadVarint frames off).toOption
  let (_, off) ← (quicReadVarint frames off).toOption
  let (reasonLen, off) ← (quicReadVarint frames off).toOption
  if frames.length < off + reasonLen then none else some (off + reasonLen)

/-- The fields of a CRYPTO frame, and its end. -/
def fullCryptoFrame (frames : Bytes) (off : ℕ) : Option (ℕ × Bytes × ℕ) := do
  let (cryptoOffset, off) ← (quicReadVarint frames off).toOption
  let (cryptoLen, off) ← (quicReadVarint frames off).toOption
  if frames.length < off + cryptoLen then none
  else some (cryptoOffset, slice frames off (off + cryptoLen), off + cryptoLen)

/-- The length field of an Initial packet, and the offset of the packet number behind it. -/
def quicReadLength (datagram : Bytes) (off : ℕ) : Option (ℕ × ℕ) := do
  let scidLen ← datagram[off]?
  if 20 < scidLen.toNat then none
  else if datagram.length < off + 1 + scidLen.toNat then none
  else do
    let (tokenLen, off) ← (quicReadVarint datagram (off + 1 + scidLen.toNat)).toOption
    if datagram.length < off + tokenLen then none
    else (quicReadVarint datagram (off + tokenLen)).toOption

/-- The offset of the packet number and the end of the packet for a length. -/
def packetOfLength (datagram : Bytes) (length pnOffset : ℕ) : Option (ℕ × ℕ) :=
  if length = 0 then none
  else if datagram.length < pnOffset + length then none
  else some (pnOffset, pnOffset + length)

/-- The offsets of the packet number and of the end of the packet, for the length as `convert`
gives it. -/
def packetLengthsWith (convert : ℕ → ℕ) (datagram : Bytes) (off : ℕ) : Option (ℕ × ℕ) := do
  let (length, pnOffset) ← quicReadLength datagram off
  packetOfLength datagram (convert length) pnOffset

/-- The offsets of the packet number and of the end of the packet. -/
def fullPacketLengths (datagram : Bytes) (off : ℕ) : Option (ℕ × ℕ) :=
  packetLengthsWith id datagram off

theorem usizeTryFrom_eq {v n : ℕ} (h : target.usizeTryFrom v = .ok n) : n = v := by
  unfold Target.usizeTryFrom at h
  split_ifs at h
  exact (Except.ok.inj h).symm

theorem isizeMax_bits32_lt : Target.bits32.isizeMax < 2 ^ 31 := by decide

/-- A length converted, added to an offset of a buffer and compared with its end: on either target
the full value is compared, if the buffer is shorter than `2 ^ 31`. -/
theorem toOption_announced {α : Type} {len v : ℕ} (f : ℕ → Except UdpSniffError α)
    (hlen : len ≤ Target.bits32.isizeMax) :
    (target.usizeTryFrom v >>= fun n => target.checkedAdd off n >>= fun stop =>
      if len < stop then .error .insufficientPrefix else f stop).toOption =
      if len < off + v then none else (f (off + v)).toOption := by
  have husize := target.le_usizeEnd
  have hisize := isizeMax_bits32_lt
  by_cases hend : len < off + v
  · rw [if_pos hend]
    unfold Target.usizeTryFrom Target.checkedAdd
    by_cases hv : v < target.usizeEnd
    · rw [if_pos hv]
      by_cases hsum : off + v < target.usizeEnd
      · simp [bind, Except.bind, hsum, hend, Except.toOption]
      · simp [bind, Except.bind, hsum, Except.toOption]
    · rw [if_neg hv]
      rfl
  · rw [if_neg hend, Target.usizeTryFrom_of_lt (by omega)]
    simp only [bind, Except.bind]
    rw [Target.checkedAdd_of_lt (by omega)]
    dsimp only
    rw [if_neg hend]

theorem toOption_quicSkipConnectionCloseFrame (hframes : frames.length ≤ Target.bits32.isizeMax) :
    (quicSkipConnectionCloseFrame target frames off).toOption =
      fullConnectionCloseFrame frames off := by
  unfold quicSkipConnectionCloseFrame fullConnectionCloseFrame
  rw [toOption_bind]
  refine congrArg _ (funext fun errorCode => ?_)
  rw [toOption_bind]
  refine congrArg _ (funext fun frameType => ?_)
  rw [toOption_bind]
  refine congrArg _ (funext fun reasonLen => ?_)
  exact toOption_announced _ hframes

theorem toOption_quicReadCryptoFrame (hframes : frames.length ≤ Target.bits32.isizeMax) :
    (quicReadCryptoFrame target frames off).toOption =
      (fullCryptoFrame frames off).filter fun r => r.1 < target.usizeEnd := by
  unfold quicReadCryptoFrame fullCryptoFrame
  rw [toOption_bind]
  cases (quicReadVarint frames off).toOption with
  | none => rfl
  | some field =>
    obtain ⟨cryptoOffset, off⟩ := field
    simp only [Option.bind_eq_bind, Option.bind_some]
    by_cases hoffset : cryptoOffset < target.usizeEnd
    · have htry : target.usizeTryFrom cryptoOffset = .ok cryptoOffset := if_pos hoffset
      rw [htry]
      refine (toOption_bind (quicReadVarint frames off) _).trans ?_
      cases (quicReadVarint frames off).toOption with
      | none => rfl
      | some field =>
        obtain ⟨cryptoLen, off⟩ := field
        refine (toOption_announced _ hframes).trans ?_
        simp only [Option.bind_some]
        split_ifs
        · rfl
        · simp [Option.filter, hoffset, Except.toOption]
    · have htry : target.usizeTryFrom cryptoOffset = .error .tooLarge := if_neg hoffset
      rw [htry]
      cases (quicReadVarint frames off).toOption with
      | none => rfl
      | some field =>
        simp only [Option.bind_some]
        split_ifs
        · rfl
        · simp [Option.filter, hoffset, bind, Except.bind, Except.toOption]

theorem quicReadCryptoFrame_eq_ok_iff (hframes : frames.length ≤ Target.bits32.isizeMax)
    {r : ℕ × Bytes × ℕ} : quicReadCryptoFrame target frames off = .ok r ↔
      fullCryptoFrame frames off = some r ∧ r.1 < target.usizeEnd := by
  rw [← toOption_eq_some_iff, toOption_quicReadCryptoFrame hframes, Option.filter_eq_some_iff,
    decide_eq_true_eq]

/-- A CRYPTO frame is only rejected for an offset beyond the capacity. -/
theorem lt_of_quicReadCryptoFrame_eq_error (hframes : frames.length ≤ Target.bits32.isizeMax)
    {e : UdpSniffError} {r : ℕ × Bytes × ℕ} (h : quicReadCryptoFrame target frames off = .error e)
    (hfull : fullCryptoFrame frames off = some r) : quicCryptoReassemblyCap < r.1 := by
  have husize := target.le_usizeEnd
  have hcap : quicCryptoReassemblyCap < 2 ^ 32 := by decide
  have hoffset : ¬r.1 < target.usizeEnd := by
    intro hoffset
    rw [(quicReadCryptoFrame_eq_ok_iff hframes).mpr ⟨hfull, hoffset⟩] at h
    cases h
  omega

/-- All lengths in front of the packet number are compared at full value, but for that of the
packet. -/
theorem toOption_quicParseInitialLengths (hdatagram : datagram.length ≤ Target.bits32.isizeMax) :
    (quicParseInitialLengths target datagram off).toOption =
      packetLengthsWith target.asUsize datagram off := by
  unfold quicParseInitialLengths packetLengthsWith quicReadLength
  cases datagram[off]? with
  | none => rfl
  | some scidLen =>
    simp only [Option.bind_eq_bind, Option.bind_some]
    split_ifs with htwenty hscid
    · rfl
    · rfl
    rw [toOption_bind]
    cases (quicReadVarint datagram (off + 1 + scidLen.toNat)).toOption with
    | none => rfl
    | some field =>
      obtain ⟨tokenLen, off⟩ := field
      refine (toOption_announced _ hdatagram).trans ?_
      simp only [Option.bind_some]
      split_ifs with htoken
      · rfl
      rw [toOption_bind]
      cases hread : quicReadVarint datagram (off + tokenLen) with
      | error e => rfl
      | ok field =>
        obtain ⟨length, pnOffset⟩ := field
        have hpnOffset := returns_quicReadVarint _ _ _ hread
        have hisize := isizeMax_bits32_lt
        rw [toOption_ok, Option.bind_some, Option.bind_some]
        dsimp only
        generalize target.asUsize length = n
        unfold packetOfLength
        rw [toOption_ite]
        split_ifs with hzero hend
        · rfl
        · unfold Target.checkedAdd
          split_ifs
          · simp [bind, Except.bind, hend, Except.toOption]
          · rfl
        · rw [Target.checkedAdd_of_lt (by omega)]
          simp [bind, Except.bind, hend, Except.toOption]

/-! ### Frames -/

/-- `quic_parse_initial_frames` over numbers of any size; `none` when it fails. -/
def fullFrames (frames : Bytes) : ℕ → ℕ → QuicCryptoReassembly → Option QuicCryptoReassembly
  | 0, _, crypto => some crypto
  | fuel + 1, off, crypto =>
    if frames.length ≤ off then some crypto
    else do
      let (frameType, off) ← (quicReadVarint frames off).toOption
      if frameType = 0x00 ∨ frameType = 0x01 then fullFrames frames fuel off crypto
      else if frameType = 0x02 ∨ frameType = 0x03 then do
        let off ← (quicSkipAckFrame frameType frames off).toOption
        fullFrames frames fuel off crypto
      else if frameType = 0x06 then do
        let (cryptoOffset, data, off) ← fullCryptoFrame frames off
        if quicCryptoReassemblyCap < cryptoOffset + data.length then none
        else fullFrames frames fuel off (crypto.store cryptoOffset data)
      else if frameType = 0x1c then do
        let off ← fullConnectionCloseFrame frames off
        fullFrames frames fuel off crypto
      else none

/-- The value and the state of a computation that succeeds. -/
def okState {α : Type} (r : Except UdpSniffError α × QuicCryptoReassembly) :
    Option (α × QuicCryptoReassembly) :=
  r.1.toOption.map fun a => (a, r.2)

/-- **Frames.** On either target the frames are parsed with all lengths at full value. -/
theorem okState_framesLoop {fuel : ℕ} (hframes : frames.length ≤ Target.bits32.isizeMax) :
    okState (framesLoop target frames fuel off crypto) =
      (fullFrames frames fuel off crypto).map fun c => ((), c) := by
  induction fuel generalizing off crypto with
  | zero => rfl
  | succ fuel ih =>
    rw [framesLoop, fullFrames]
    split_ifs with hend
    · rfl
    cases quicReadVarint frames off with
    | error e => rfl
    | ok field =>
      obtain ⟨frameType, off⟩ := field
      rw [toOption_ok, Option.bind_eq_bind, Option.bind_some]
      dsimp only
      split_ifs with hskip hack hcrypto hclose
      · exact ih
      · cases quicSkipAckFrame frameType frames off with
        | error e => rfl
        | ok next => exact ih
      · cases hread : quicReadCryptoFrame target frames off with
        | error e =>
          cases hfull : fullCryptoFrame frames off with
          | none => rfl
          | some r =>
            have hoffset : quicCryptoReassemblyCap < r.1 :=
              lt_of_quicReadCryptoFrame_eq_error hframes hread hfull
            rw [Option.bind_eq_bind, Option.bind_some, if_pos (by omega)]
            rfl
        | ok r =>
          obtain ⟨cryptoOffset, data, next⟩ := r
          rw [((quicReadCryptoFrame_eq_ok_iff hframes).mp hread).1, Option.bind_eq_bind,
            Option.bind_some]
          dsimp only
          by_cases hcap : quicCryptoReassemblyCap < cryptoOffset + data.length
          · rw [QuicCryptoReassembly.write_of_lt hcap, if_pos hcap]
            rfl
          · rw [QuicCryptoReassembly.write_of_le (not_lt.mp hcap), if_neg hcap]
            exact ih
      · have hstop : (quicSkipConnectionCloseFrame target frames off).toOption = _ :=
          toOption_quicSkipConnectionCloseFrame hframes
        rw [← hstop]
        cases quicSkipConnectionCloseFrame target frames off with
        | error e => rfl
        | ok next => exact ih
      · rfl

/-! ### Packets -/

/-- A packet within a datagram opens alike on both targets. -/
theorem quicRemoveHeaderProtectionAndDecrypt_target {packetStart pnOffset packetEnd : ℕ}
    {keys : QuicInitialKeys} (hpnOffset : pnOffset ≤ Target.bits32.isizeMax) :
    quicRemoveHeaderProtectionAndDecrypt target prims datagram packetStart pnOffset packetEnd keys =
      quicRemoveHeaderProtectionAndDecrypt .bits64 prims datagram packetStart pnOffset packetEnd
        keys := by
  have hisize := isizeMax_bits32_lt
  have hfour (t : Target) : t.checkedAdd pnOffset 4 = .ok (pnOffset + 4) :=
    Target.checkedAdd_of_lt (by omega)
  have hsixteen (t : Target) : t.checkedAdd (pnOffset + 4) 16 = .ok (pnOffset + 4 + 16) :=
    Target.checkedAdd_of_lt (by omega)
  unfold quicRemoveHeaderProtectionAndDecrypt
  rw [hfour, hfour]
  simp only [bind, Except.bind]
  rw [hsixteen, hsixteen]

/-- A packet behind its header is opened, with its length as `convert` gives it. -/
def openWith (convert : ℕ → ℕ) (prims : QuicPrimitives) (datagram : Bytes) (packetStart : ℕ)
    (header : ℕ × Bytes × ℕ) : Option (Bytes × ℕ) := do
  let (pnOffset, packetEnd) ← packetLengthsWith convert datagram header.2.2
  let keys ← (deriveQuicInitialKeys prims header.1 header.2.1).toOption
  let frames ← (quicRemoveHeaderProtectionAndDecrypt .bits64 prims datagram packetStart pnOffset
    packetEnd keys).toOption
  some (frames, packetEnd)

/-- `quic_parse_one_initial_packet` over numbers of any size, but for the conversion of the length
of the packet; `none` when it fails. -/
def packetWith (convert : ℕ → ℕ) (prims : QuicPrimitives) (datagram : Bytes) (packetStart : ℕ)
    (crypto : QuicCryptoReassembly) : Option (ℕ × QuicCryptoReassembly) := do
  let header ← (quicParseInitialHeader datagram packetStart).toOption
  let (frames, packetEnd) ← openWith convert prims datagram packetStart header
  let crypto ← fullFrames frames frames.length 0 (crypto.noteDcid header.2.1)
  some (packetEnd, crypto)

theorem toOption_quicOpenInitialPacket {start : ℕ} {header : ℕ × Bytes × ℕ}
    (hdatagram : datagram.length ≤ Target.bits32.isizeMax) :
    (quicOpenInitialPacket target prims datagram start header).toOption =
      openWith target.asUsize prims datagram start header := by
  unfold quicOpenInitialPacket openWith
  rw [toOption_bind, ← toOption_quicParseInitialLengths hdatagram]
  cases hok : quicParseInitialLengths target datagram header.2.2 with
  | error e => rfl
  | ok lengths =>
    obtain ⟨pnOffset, packetEnd⟩ := lengths
    have hend := returns_quicParseInitialLengths _ _ _ _ hok
    dsimp only at hend
    refine (toOption_bind _ _).trans (congrArg _ (funext fun keys => ?_))
    rw [quicRemoveHeaderProtectionAndDecrypt_target (by omega), toOption_bind]
    rfl

/-- **Packets.** On either target a packet is parsed with all lengths at full value, but for its own
length. -/
theorem okState_quicParseOneInitialPacket (hprims : prims.Sized .bits32)
    (hdatagram : datagram.length ≤ Target.bits32.isizeMax) :
    okState (quicParseOneInitialPacket target prims datagram off crypto) =
      packetWith target.asUsize prims datagram off crypto := by
  unfold packetWith
  cases hheader : quicParseInitialHeader datagram off with
  | error e =>
    rw [quicParseOneInitialPacket, hheader]
    rfl
  | ok header =>
    rw [quicParseOneInitialPacket_eq hheader]
    change _ = (openWith target.asUsize prims datagram off header).bind _
    rw [← toOption_quicOpenInitialPacket hdatagram]
    cases hopened : quicOpenInitialPacket target prims datagram off header with
    | error e => rfl
    | ok opened =>
      obtain ⟨lengths, -, hopened⟩ := bind_eq_ok_iff.mp hopened
      obtain ⟨keys, -, hopened⟩ := bind_eq_ok_iff.mp hopened
      obtain ⟨frames, hframes, hopened⟩ := bind_eq_ok_iff.mp hopened
      obtain rfl := Except.ok.inj hopened
      have hlength := returns_plaintext hprims _ hframes
      have hparse :
          okState (quicParseInitialFrames target frames (crypto.noteDcid header.2.1)) = _ :=
        okState_framesLoop hlength
      change _ = (fullFrames frames frames.length 0 (crypto.noteDcid header.2.1)).bind _
      dsimp only
      generalize fullFrames frames frames.length 0 (crypto.noteDcid header.2.1) = full at hparse ⊢
      generalize quicParseInitialFrames target frames (crypto.noteDcid header.2.1) = parsed
        at hparse ⊢
      rcases parsed with ⟨e | u, crypto'⟩
      · cases full with
        | none => rfl
        | some c => cases hparse
      · cases full with
        | none => cases hparse
        | some c =>
          obtain rfl : crypto' = c := congrArg Prod.snd (Option.some.inj hparse)
          rfl

/-! ### Datagrams -/

/-- A round of the loop over the packets of a datagram after which the loop goes on. -/
def PacketStep (target : Target) (prims : QuicPrimitives) (datagram : Bytes)
    (s t : ℕ × QuicCryptoReassembly) : Prop :=
  s.1 < datagram.length ∧
  quicParseOneInitialPacket target prims datagram s.1 s.2 = (.ok t.1, t.2) ∧
  quicParseTlsClientHelloFromCrypto t.2.contiguous = .error .insufficientPrefix

/-- The offset and the state with which the loop comes to a packet. -/
def Reaches (target : Target) (prims : QuicPrimitives) (datagram : Bytes) :
    ℕ × QuicCryptoReassembly → ℕ × QuicCryptoReassembly → Prop :=
  Relation.ReflTransGen (PacketStep target prims datagram)

/-- The packet completes a ClientHello with the host. -/
def FindsHost (target : Target) (prims : QuicPrimitives) (datagram : Bytes)
    (s : ℕ × QuicCryptoReassembly) (host : Str) : Prop :=
  s.1 < datagram.length ∧ ∃ t : ℕ × QuicCryptoReassembly,
    quicParseOneInitialPacket target prims datagram s.1 s.2 = (.ok t.1, t.2) ∧
    quicParseTlsClientHelloFromCrypto t.2.contiguous = .ok host

/-- What the loop finds is found at the packet it is at, or behind it. -/
theorem exists_reaches_iff {s : ℕ × QuicCryptoReassembly} {host : Str} :
    (∃ t, Reaches target prims datagram s t ∧ FindsHost target prims datagram t host) ↔
      FindsHost target prims datagram s host ∨
      ∃ u, PacketStep target prims datagram s u ∧
        ∃ t, Reaches target prims datagram u t ∧ FindsHost target prims datagram t host := by
  constructor
  · rintro ⟨t, hreach, hfinds⟩
    obtain rfl | ⟨u, hstep, hrest⟩ := Relation.ReflTransGen.cases_head hreach
    · exact .inl hfinds
    · exact .inr ⟨u, hstep, t, hrest, hfinds⟩
  · rintro (hfinds | ⟨u, hstep, t, hreach, hfinds⟩)
    · exact ⟨s, .refl, hfinds⟩
    · exact ⟨t, .head hstep hreach, hfinds⟩

/-- Behind the end of the datagram nothing is found. -/
theorem not_exists_reaches {host : Str} (hend : datagram.length ≤ off) :
    ¬∃ t, Reaches target prims datagram (off, crypto) t ∧
      FindsHost target prims datagram t host := by
  rw [exists_reaches_iff]
  rintro (⟨hlt, -⟩ | ⟨u, ⟨hlt, -⟩, -⟩)
  · exact absurd hlt (not_lt.mpr hend)
  · exact absurd hlt (not_lt.mpr hend)

theorem datagramLoop_eq_ok_iff {fuel : ℕ} {sawInitial : Bool} {host : Str}
    (hfuel : datagram.length ≤ off + fuel) :
    (datagramLoop target prims datagram fuel off sawInitial crypto).1 = .ok host ↔
      ∃ t, Reaches target prims datagram (off, crypto) t ∧
        FindsHost target prims datagram t host := by
  induction fuel generalizing off sawInitial crypto with
  | zero =>
    refine iff_of_false ?_ (not_exists_reaches (by omega))
    simp [datagramLoop]
  | succ fuel ih =>
    rw [datagramLoop]
    by_cases hend : datagram.length ≤ off
    · rw [if_pos hend]
      refine iff_of_false ?_ (not_exists_reaches hend)
      simp
    rw [if_neg hend, exists_reaches_iff]
    have hnext := returns_quicParseOneInitialPacket target prims datagram off crypto
    simp only [FindsHost, PacketStep]
    generalize quicParseOneInitialPacket target prims datagram off crypto = parsed at hnext ⊢
    rcases parsed with ⟨e | next, crypto'⟩
    · have hne (t : ℕ × QuicCryptoReassembly) :
          ((.error e, crypto') : Except UdpSniffError ℕ × QuicCryptoReassembly) ≠
            (.ok t.1, t.2) := by
        simp
      simp only [hne, false_and, and_false, exists_false, or_false]
      cases e <;> simp
    · have hmoved := hnext next rfl
      have heq (t : ℕ × QuicCryptoReassembly) :
          ((.ok next, crypto') : Except UdpSniffError ℕ × QuicCryptoReassembly) = (.ok t.1, t.2) ↔
            t = (next, crypto') := by
        rw [Prod.mk.injEq, Except.ok.injEq, Prod.ext_iff, eq_comm, eq_comm (a := crypto')]
      simp only [heq, exists_eq_left, and_assoc, not_le.mp hend, true_and]
      cases hhello : quicParseTlsClientHelloFromCrypto crypto'.contiguous with
      | ok host' => simp
      | error e =>
        cases e with
        | insufficientPrefix =>
          have hrest :
              (datagramLoop target prims datagram fuel next true crypto').1 = .ok host ↔ _ :=
            ih (by omega)
          simpa [FindsHost] using hrest
        | protocolNotMatched | noTarget | parseError | invalidHostname | tooLarge => simp

/-- **Hosts.** A datagram yields a host exactly where the loop comes to a packet that completes a
ClientHello with it. -/
theorem sniff_eq_ok_iff {host : Str} :
    (sniffQuicSniFromDatagramWithReassembly target prims datagram crypto).1 = .ok host ↔
      ∃ t, Reaches target prims (datagram.take quicSniInputCap) (0, crypto) t ∧
        FindsHost target prims (datagram.take quicSniInputCap) t host := by
  unfold sniffQuicSniFromDatagramWithReassembly
  cases htake : datagram.take quicSniInputCap with
  | nil =>
    rw [exists_reaches_iff]
    simp [FindsHost, PacketStep]
  | cons first rest =>
    dsimp only
    split_ifs with hfirst
    · -- nor is the first packet parsed then
      have hparse : quicParseOneInitialPacket target prims (first :: rest) 0 crypto =
          (.error .protocolNotMatched, crypto) := by
        rw [quicParseOneInitialPacket, quicParseInitialHeader]
        simp [hfirst]
      rw [exists_reaches_iff]
      simp [FindsHost, PacketStep, hparse]
    · exact datagramLoop_eq_ok_iff (by omega)

/-! ### The two targets -/

/-- The length of a packet is read as it is sent. -/
theorem quicReadLength_lt {r : ℕ × ℕ} (h : quicReadLength datagram off = some r) :
    r.1 < 2 ^ 62 := by
  unfold quicReadLength at h
  obtain ⟨scidLen, -, h⟩ := Option.bind_eq_some_iff.mp h
  split_ifs at h with htwenty hscid
  obtain ⟨field, -, h⟩ := Option.bind_eq_some_iff.mp h
  dsimp only at h
  split_ifs at h with htoken
  exact returns_quicReadVarint_lt _ _ _ (toOption_eq_some_iff.mp h)

/-- A packet with a length that only fits when it is cut off to 32 bits. -/
def truncates (datagram : Bytes) (packetStart : ℕ) : Bool :=
  match quicParseInitialHeader datagram packetStart with
  | .error _ => false
  | .ok (_, _, off) =>
    match quicReadLength datagram off with
    | none => false
    | some (length, pnOffset) =>
      decide (2 ^ 32 ≤ length) && (packetOfLength datagram (length % 2 ^ 32) pnOffset).isSome

/-- Every length is used at its full value or rejected: those of a packet that the loop comes to,
and those of frames. -/
structure UsesFullLengths (target : Target) (prims : QuicPrimitives) (datagram : Bytes)
    (crypto : QuicCryptoReassembly) : Prop where
  packet (s : ℕ × QuicCryptoReassembly) (hs : Reaches target prims datagram (0, crypto) s)
    (version : ℕ) (dcid : Bytes) (off : ℕ) (r : ℕ × ℕ)
    (hheader : quicParseInitialHeader datagram s.1 = .ok (version, dcid, off))
    (hlengths : quicParseInitialLengths target datagram off = .ok r) :
    fullPacketLengths datagram off = some r
  cryptoFrame (frames : Bytes) (off : ℕ) (r : ℕ × Bytes × ℕ)
    (h : quicReadCryptoFrame target frames off = .ok r) : fullCryptoFrame frames off = some r
  connectionCloseFrame (frames : Bytes) (off stop : ℕ)
    (h : quicSkipConnectionCloseFrame target frames off = .ok stop) :
    fullConnectionCloseFrame frames off = some stop

/-- The hosts are the same on both targets, and neither uses a length cut off. -/
structure SameOnTargets (prims : QuicPrimitives) (datagram : Bytes)
    (crypto : QuicCryptoReassembly) : Prop where
  ok_iff (host : Str) :
    (sniffQuicSniFromDatagramWithReassembly .bits32 prims datagram crypto).1 = .ok host ↔
      (sniffQuicSniFromDatagramWithReassembly .bits64 prims datagram crypto).1 = .ok host
  full (target : Target) :
    UsesFullLengths target prims (datagram.take quicSniInputCap) crypto

/-! ### The length of a packet on either target -/

theorem packetLengthsWith_eq_some_iff {convert : ℕ → ℕ} {r : ℕ × ℕ} :
    packetLengthsWith convert datagram off = some r ↔
      ∃ length pnOffset, quicReadLength datagram off = some (length, pnOffset) ∧
        packetOfLength datagram (convert length) pnOffset = some r := by
  rw [packetLengthsWith, Option.bind_eq_bind, Option.bind_eq_some_iff, Prod.exists]

theorem le_of_packetOfLength {length pnOffset : ℕ} {r : ℕ × ℕ}
    (h : packetOfLength datagram length pnOffset = some r) :
    pnOffset + length ≤ datagram.length := by
  unfold packetOfLength at h
  split_ifs at h with hzero hend
  exact not_lt.mp hend

/-- On a 64-bit target the length has its full value. -/
theorem packetLengthsWith_bits64 :
    packetLengthsWith Target.bits64.asUsize datagram off = fullPacketLengths datagram off := by
  refine Option.ext fun r => ?_
  rw [fullPacketLengths, packetLengthsWith_eq_some_iff, packetLengthsWith_eq_some_iff]
  refine exists_congr fun length => exists_congr fun pnOffset => and_congr_right fun hread => ?_
  have hlt : length < 2 ^ 62 := quicReadLength_lt hread
  have hvalue : Target.bits64.asUsize length = length :=
    Nat.mod_eq_of_lt (hlt.trans (by decide))
  rw [hvalue, id]

/-- A length that fits at its full value is used by the 32-bit target. -/
theorem packetLengthsWith_bits32 {r : ℕ × ℕ}
    (hdatagram : datagram.length ≤ Target.bits32.isizeMax)
    (h : fullPacketLengths datagram off = some r) :
    packetLengthsWith Target.bits32.asUsize datagram off = some r := by
  obtain ⟨length, pnOffset, hread, hlength⟩ := packetLengthsWith_eq_some_iff.mp h
  have hle : pnOffset + length ≤ datagram.length := le_of_packetOfLength hlength
  have hisize := isizeMax_bits32_lt
  have hvalue : Target.bits32.asUsize length = length := Target.asUsize_of_lt (by omega)
  exact packetLengthsWith_eq_some_iff.mpr ⟨length, pnOffset, hread, by rw [hvalue]; exact hlength⟩

/-- **Truncation.** Behind the header of a packet the 32-bit target uses the length at its full
value exactly when the packet does not truncate. -/
theorem truncates_eq_false_iff {start version : ℕ} {dcid : Bytes}
    (hdatagram : datagram.length ≤ Target.bits32.isizeMax)
    (hheader : quicParseInitialHeader datagram start = .ok (version, dcid, off)) :
    truncates datagram start = false ↔
      ∀ r, packetLengthsWith Target.bits32.asUsize datagram off = some r →
        fullPacketLengths datagram off = some r := by
  have hisize := isizeMax_bits32_lt
  unfold truncates fullPacketLengths packetLengthsWith
  rw [hheader]
  dsimp only
  cases hread : quicReadLength datagram off with
  | none => simp
  | some field =>
    obtain ⟨length, pnOffset⟩ := field
    simp only [Option.bind_eq_bind, Option.bind_some, id]
    have hcast : Target.bits32.asUsize length = length % 2 ^ 32 := rfl
    rw [hcast]
    rcases lt_or_ge length (2 ^ 32) with hlt | hge
    · rw [Nat.mod_eq_of_lt hlt, decide_eq_false (not_le.mpr hlt), Bool.false_and]
      exact iff_of_true rfl fun r hr => hr
    · rw [decide_eq_true hge, Bool.true_and]
      have hnone : packetOfLength datagram length pnOffset = none := by
        unfold packetOfLength
        rw [if_neg (by omega), if_pos (by omega)]
      rw [hnone]
      cases packetOfLength datagram (length % 2 ^ 32) pnOffset with
      | none => simp
      | some r => simp

/-- A packet that is parsed with one conversion of its length is parsed with another one that gives
the same lengths. -/
theorem packetWith_mono {convert convert' : ℕ → ℕ} {start : ℕ}
    {r : ℕ × QuicCryptoReassembly}
    (hlengths : ∀ version dcid off l,
      quicParseInitialHeader datagram start = .ok (version, dcid, off) →
      packetLengthsWith convert datagram off = some l →
        packetLengthsWith convert' datagram off = some l)
    (h : packetWith convert prims datagram start crypto = some r) :
    packetWith convert' prims datagram start crypto = some r := by
  unfold packetWith openWith at h ⊢
  cases hheader : quicParseInitialHeader datagram start with
  | error e =>
    rw [hheader] at h
    cases h
  | ok header =>
    obtain ⟨version, dcid, off⟩ := header
    rw [hheader] at h
    rw [toOption_ok, Option.bind_eq_bind, Option.bind_some] at h ⊢
    dsimp only at h ⊢
    cases hl : packetLengthsWith convert datagram off with
    | none =>
      rw [hl] at h
      cases h
    | some l =>
      rw [hl] at h
      rw [hlengths version dcid off l hheader hl]
      exact h

theorem okState_eq_some_iff {α : Type} {r : Except UdpSniffError α × QuicCryptoReassembly} {a : α}
    {c : QuicCryptoReassembly} : okState r = some (a, c) ↔ r = (.ok a, c) := by
  obtain ⟨e | b, c'⟩ := r
  · simp [okState, Except.toOption]
  · simp [okState, Except.toOption]

section Step

variable {start next : ℕ} {crypto' : QuicCryptoReassembly}

/-- **From 64 to 32 bits.** A packet that the 64-bit target parses is parsed alike by the other. -/
theorem parse_bits32_of_bits64 (hprims : prims.Sized .bits32)
    (hdatagram : datagram.length ≤ Target.bits32.isizeMax)
    (h : quicParseOneInitialPacket .bits64 prims datagram start crypto = (.ok next, crypto')) :
    quicParseOneInitialPacket .bits32 prims datagram start crypto = (.ok next, crypto') := by
  rw [← okState_eq_some_iff, okState_quicParseOneInitialPacket hprims hdatagram] at h ⊢
  refine packetWith_mono (fun version dcid off l _ hl => ?_) h
  rw [packetLengthsWith_bits64] at hl
  exact packetLengthsWith_bits32 hdatagram hl

/-- **From 32 to 64 bits.** A packet that the 32-bit target parses is parsed alike by the other,
unless it truncates. -/
theorem parse_bits64_of_bits32 (hprims : prims.Sized .bits32)
    (hdatagram : datagram.length ≤ Target.bits32.isizeMax)
    (hfits : truncates datagram start = false)
    (h : quicParseOneInitialPacket .bits32 prims datagram start crypto = (.ok next, crypto')) :
    quicParseOneInitialPacket .bits64 prims datagram start crypto = (.ok next, crypto') := by
  rw [← okState_eq_some_iff, okState_quicParseOneInitialPacket hprims hdatagram] at h ⊢
  refine packetWith_mono (fun version dcid off l hheader hl => ?_) h
  rw [packetLengthsWith_bits64]
  exact (truncates_eq_false_iff hdatagram hheader).mp hfits l hl

end Step

/-- The packets that the 64-bit target comes to are come to by the other. -/
theorem reaches_bits32_of_bits64 {s t : ℕ × QuicCryptoReassembly} (hprims : prims.Sized .bits32)
    (hdatagram : datagram.length ≤ Target.bits32.isizeMax)
    (h : Reaches .bits64 prims datagram s t) : Reaches .bits32 prims datagram s t := by
  induction h with
  | refl => exact .refl
  | tail _ hstep ih =>
    exact ih.tail ⟨hstep.1, parse_bits32_of_bits64 hprims hdatagram hstep.2.1, hstep.2.2⟩

/-- Conversely, if none of them truncates. -/
theorem reaches_bits64_of_bits32 {s t : ℕ × QuicCryptoReassembly} (hprims : prims.Sized .bits32)
    (hdatagram : datagram.length ≤ Target.bits32.isizeMax)
    (hfits : ∀ t, Reaches .bits64 prims datagram s t → truncates datagram t.1 = false)
    (h : Reaches .bits32 prims datagram s t) : Reaches .bits64 prims datagram s t := by
  induction h with
  | refl => exact .refl
  | tail _ hstep ih =>
    exact ih.tail ⟨hstep.1, parse_bits64_of_bits32 hprims hdatagram (hfits _ ih) hstep.2.1,
      hstep.2.2⟩

/-- A length that passes its checks is used at full value. -/
theorem announced_eq_ok {α : Type} {len v : ℕ} {f : ℕ → Except UdpSniffError α} {r : α}
    (h : (target.usizeTryFrom v >>= fun n => target.checkedAdd off n >>= fun stop =>
      if len < stop then .error .insufficientPrefix else f stop) = .ok r) :
    ¬len < off + v ∧ f (off + v) = .ok r := by
  obtain ⟨n, htry, h⟩ := bind_eq_ok_iff.mp h
  obtain ⟨stop, hstop, h⟩ := bind_eq_ok_iff.mp h
  obtain rfl := usizeTryFrom_eq htry
  obtain rfl := checkedAdd_eq hstop
  split_ifs at h with hend
  exact ⟨hend, h⟩

/-- The lengths of a CRYPTO frame are used at full value. -/
theorem fullCryptoFrame_of_eq_ok {r : ℕ × Bytes × ℕ}
    (h : quicReadCryptoFrame target frames off = .ok r) : fullCryptoFrame frames off = some r := by
  obtain ⟨⟨cryptoOffset, off₁⟩, hoffset, h⟩ := bind_eq_ok_iff.mp h
  obtain ⟨cryptoOffset', htry, h⟩ := bind_eq_ok_iff.mp h
  obtain ⟨⟨cryptoLen, off₂⟩, hlen, h⟩ := bind_eq_ok_iff.mp h
  obtain ⟨hend, hr⟩ := announced_eq_ok h
  obtain rfl := usizeTryFrom_eq htry
  unfold fullCryptoFrame
  rw [toOption_eq_some_iff.mpr hoffset, Option.bind_eq_bind, Option.bind_some]
  dsimp only
  rw [toOption_eq_some_iff.mpr hlen, Option.bind_some]
  dsimp only
  rw [if_neg hend]
  exact congrArg some (Except.ok.inj hr)

/-- So is that of a reason. -/
theorem fullConnectionCloseFrame_of_eq_ok {stop : ℕ}
    (h : quicSkipConnectionCloseFrame target frames off = .ok stop) :
    fullConnectionCloseFrame frames off = some stop := by
  obtain ⟨⟨errorCode, off₁⟩, herror, h⟩ := bind_eq_ok_iff.mp h
  obtain ⟨⟨frameType, off₂⟩, htype, h⟩ := bind_eq_ok_iff.mp h
  obtain ⟨⟨reasonLen, off₃⟩, hreason, h⟩ := bind_eq_ok_iff.mp h
  obtain ⟨hend, hr⟩ := announced_eq_ok h
  unfold fullConnectionCloseFrame
  rw [toOption_eq_some_iff.mpr herror, Option.bind_eq_bind, Option.bind_some]
  dsimp only
  rw [toOption_eq_some_iff.mpr htype, Option.bind_some]
  dsimp only
  rw [toOption_eq_some_iff.mpr hreason, Option.bind_some]
  dsimp only
  rw [if_neg hend]
  exact congrArg some (Except.ok.inj hr)

/-! ### Agreement -/

/-- The lengths are used at full value where the packets that are come to allow it. -/
theorem usesFullLengths_of_packet
    (hpacket : ∀ s, Reaches target prims datagram (0, crypto) s → ∀ version dcid off r,
      quicParseInitialHeader datagram s.1 = .ok (version, dcid, off) →
      quicParseInitialLengths target datagram off = .ok r →
        fullPacketLengths datagram off = some r) :
    UsesFullLengths target prims datagram crypto where
  packet := hpacket
  cryptoFrame _ _ _ := fullCryptoFrame_of_eq_ok
  connectionCloseFrame _ _ _ := fullConnectionCloseFrame_of_eq_ok

/-- A 64-bit target uses all lengths at full value. -/
theorem usesFullLengths_bits64 (hdatagram : datagram.length ≤ Target.bits32.isizeMax) :
    UsesFullLengths .bits64 prims datagram crypto := by
  refine usesFullLengths_of_packet fun s hs version dcid off r hheader hlengths => ?_
  rw [← packetLengthsWith_bits64, ← toOption_quicParseInitialLengths hdatagram]
  exact toOption_eq_some_iff.mpr hlengths

/-- **Full lengths.** A 32-bit target does so exactly when it comes to no packet that truncates. -/
theorem usesFullLengths_bits32_iff (hdatagram : datagram.length ≤ Target.bits32.isizeMax) :
    UsesFullLengths .bits32 prims datagram crypto ↔
      ∀ s, Reaches .bits32 prims datagram (0, crypto) s → truncates datagram s.1 = false := by
  constructor
  · intro hfull s hs
    cases hheader : quicParseInitialHeader datagram s.1 with
    | error e => rw [truncates, hheader]
    | ok header =>
      obtain ⟨version, dcid, off⟩ := header
      refine (truncates_eq_false_iff hdatagram hheader).mpr fun r hr => ?_
      rw [← toOption_quicParseInitialLengths hdatagram, toOption_eq_some_iff] at hr
      exact hfull.packet s hs version dcid off r hheader hr
  · intro hfits
    refine usesFullLengths_of_packet fun s hs version dcid off r hheader hlengths => ?_
    refine (truncates_eq_false_iff hdatagram hheader).mp (hfits s hs) r ?_
    rw [← toOption_quicParseInitialLengths hdatagram]
    exact toOption_eq_some_iff.mpr hlengths

/-- The targets find the same hosts in datagrams without packets that truncate. -/
theorem exists_findsHost_iff {s : ℕ × QuicCryptoReassembly} {host : Str}
    (hprims : prims.Sized .bits32) (hdatagram : datagram.length ≤ Target.bits32.isizeMax)
    (hfits : ∀ t, Reaches .bits64 prims datagram s t → truncates datagram t.1 = false) :
    (∃ t, Reaches .bits32 prims datagram s t ∧ FindsHost .bits32 prims datagram t host) ↔
      ∃ t, Reaches .bits64 prims datagram s t ∧ FindsHost .bits64 prims datagram t host := by
  constructor
  · rintro ⟨t, hreach, hlt, next, hparse, hhello⟩
    have hreach64 := reaches_bits64_of_bits32 hprims hdatagram hfits hreach
    exact ⟨t, hreach64, hlt, next,
      parse_bits64_of_bits32 hprims hdatagram (hfits t hreach64) hparse, hhello⟩
  · rintro ⟨t, hreach, hlt, next, hparse, hhello⟩
    exact ⟨t, reaches_bits32_of_bits64 hprims hdatagram hreach, hlt, next,
      parse_bits32_of_bits64 hprims hdatagram hparse, hhello⟩

/-- **Targets.** The hosts are the same on both targets and all lengths are used at full value or
rejected, exactly where no packet that a 64-bit target comes to in the datagram truncates. -/
theorem sameOnTargets_iff (hprims : prims.Sized .bits32) :
    SameOnTargets prims datagram crypto ↔
      ∀ s, Reaches .bits64 prims (datagram.take quicSniInputCap) (0, crypto) s →
        truncates (datagram.take quicSniInputCap) s.1 = false := by
  have hdatagram : (datagram.take quicSniInputCap).length ≤ Target.bits32.isizeMax :=
    (List.length_take_le _ _).trans (by decide)
  constructor
  · intro hsame s hs
    have hfits := (usesFullLengths_bits32_iff hdatagram).mp (hsame.full .bits32)
    exact hfits s (reaches_bits32_of_bits64 hprims hdatagram hs)
  · intro hfits
    have hbits32 : UsesFullLengths .bits32 prims (datagram.take quicSniInputCap) crypto := by
      refine (usesFullLengths_bits32_iff hdatagram).mpr fun s hs => hfits s ?_
      exact reaches_bits64_of_bits32 hprims hdatagram hfits hs
    constructor
    · intro host
      rw [sniff_eq_ok_iff, sniff_eq_ok_iff]
      exact exists_findsHost_iff hprims hdatagram hfits
    · intro target
      cases target with
      | bits32 => exact hbits32
      | bits64 => exact usesFullLengths_bits64 hdatagram

theorem truncates_of_length_le {start : ℕ} (h : datagram.length ≤ start) :
    truncates datagram start = false := by
  rw [truncates, quicParseInitialHeader, List.getElem?_eq_none h]

/-- No packet of the first sample datagram truncates. -/
theorem sampleFirst_sameOnTargets : SameOnTargets sizedPrimitives sampleFirst.encode {} := by
  have hbelow : ∀ start < (sampleFirst.encode.take quicSniInputCap).length,
      truncates (sampleFirst.encode.take quicSniInputCap) start = false := by
    decide +kernel
  refine (sameOnTargets_iff (sizedPrimitives_sized .bits32)).mpr fun s _ => ?_
  rcases lt_or_ge s.1 (sampleFirst.encode.take quicSniInputCap).length with hlt | hge
  · exact hbelow s.1 hlt
  · exact truncates_of_length_le hge

/-- The values of AES-128 and AES-128-GCM for the packet below, under the keys of the sample
connection. -/
def truncatingPrimitives : QuicPrimitives :=
  { sizedPrimitives with
    aesEncryptBlock := fun key block =>
      ((List.lookup (key, block)
        [((sampleKeys.hpKey,
            [0xdb, 0x9a, 0x7c, 0x9b, 0x24, 0xc0, 0xa6, 0x4e, 0x97, 0xc5, 0x8c, 0x72, 0xc5, 0x25,
              0x18, 0x19]),
            [0xe8, 0xb6, 0x80, 0x67, 0xf9, 0x01, 0xe7, 0x91, 0xca, 0x3e, 0xf0, 0x2c, 0x26, 0x55,
              0x99, 0xa9])]).getD []).takeD 16 0
    aeadDecrypt := fun key nonce ciphertext header =>
      List.lookup (key, nonce, ciphertext, header)
        [((sampleKeys.key,
            [0xfa, 0x04, 0x4b, 0x2f, 0x42, 0xa3, 0xfd, 0x3b, 0x46, 0xfb, 0x25, 0x5c],
            [0x46, 0xb4, 0x2d, 0xdb, 0x9a, 0x7c, 0x9b, 0x24, 0xc0, 0xa6, 0x4e, 0x97, 0xc5, 0x8c,
              0x72, 0xc5, 0x25, 0x18, 0x19, 0xf4, 0xa0, 0x5c, 0x1a, 0x15, 0xbe, 0x66, 0xae, 0x7c,
              0x89, 0x32, 0x15, 0xa2, 0x1b, 0x6d, 0xfd, 0x74, 0x5f, 0x17, 0x6a, 0x47, 0x63, 0x17,
              0x27, 0xf9, 0x02, 0xf7, 0xe5, 0x75, 0xe9, 0x0f, 0x68, 0xd7, 0x31, 0xea, 0xba, 0x71,
              0xa4, 0xdd, 0xd4, 0xea, 0x1f, 0x00, 0x7b, 0x4c, 0xac, 0x71, 0xc5, 0xe2, 0x8b, 0xef,
              0x3d, 0x6a, 0x47, 0x48, 0xb9, 0x53, 0x5b, 0xad, 0x60],
            [0xc0, 0x00, 0x00, 0x00, 0x01, 0x08, 0x83, 0x94, 0xc8, 0xf0, 0x3e, 0x51, 0x57, 0x08,
              0x00, 0x00, 0xc0, 0x00, 0x00, 0x01, 0x00, 0x00, 0x00, 0x50, 0x00]),
            [0x06, 0x00, 0x3c] ++ sampleHello.message)] }

/-- An Initial packet with the length `2 ^ 32 + 80`, and the 80 bytes of which the ClientHello is
decrypted. -/
def truncatingPacket : Bytes :=
  [0xc8, 0x00, 0x00, 0x00, 0x01, 0x08, 0x83, 0x94, 0xc8, 0xf0, 0x3e, 0x51, 0x57, 0x08, 0x00, 0x00,
    0xc0, 0x00, 0x00, 0x01, 0x00, 0x00, 0x00, 0x50,
    0xb6, 0x46, 0xb4, 0x2d, 0xdb, 0x9a, 0x7c, 0x9b, 0x24, 0xc0, 0xa6, 0x4e, 0x97, 0xc5, 0x8c, 0x72,
    0xc5, 0x25, 0x18, 0x19, 0xf4, 0xa0, 0x5c, 0x1a, 0x15, 0xbe, 0x66, 0xae, 0x7c, 0x89, 0x32, 0x15,
    0xa2, 0x1b, 0x6d, 0xfd, 0x74, 0x5f, 0x17, 0x6a, 0x47, 0x63, 0x17, 0x27, 0xf9, 0x02, 0xf7, 0xe5,
    0x75, 0xe9, 0x0f, 0x68, 0xd7, 0x31, 0xea, 0xba, 0x71, 0xa4, 0xdd, 0xd4, 0xea, 0x1f, 0x00, 0x7b,
    0x4c, 0xac, 0x71, 0xc5, 0xe2, 0x8b, 0xef, 0x3d, 0x6a, 0x47, 0x48, 0xb9, 0x53, 0x5b, 0xad, 0x60]

/-- The 32-bit target finds the host `a.io` in a packet that the 64-bit target takes for cut off. -/
theorem truncatingPacket_differs :
    (sniffQuicSniFromDatagramWithReassembly .bits32 truncatingPrimitives truncatingPacket {}).1 =
      .ok [0x61, 0x2e, 0x69, 0x6f] ∧
    (sniffQuicSniFromDatagramWithReassembly .bits64 truncatingPrimitives truncatingPacket {}).1 =
      .error .insufficientPrefix ∧
    ¬SameOnTargets truncatingPrimitives truncatingPacket {} := by
  have hbits32 : (sniffQuicSniFromDatagramWithReassembly .bits32 truncatingPrimitives
      truncatingPacket {}).1 = .ok [0x61, 0x2e, 0x69, 0x6f] := by
    decide +kernel
  have hbits64 : (sniffQuicSniFromDatagramWithReassembly .bits64 truncatingPrimitives
      truncatingPacket {}).1 = .error .insufficientPrefix := by
    decide +kernel
  refine ⟨hbits32, hbits64, fun hsame => ?_⟩
  have hok := (hsame.ok_iff _).mp hbits32
  rw [hbits64] at hok
  cases hok

end XtpRs.Sniff
