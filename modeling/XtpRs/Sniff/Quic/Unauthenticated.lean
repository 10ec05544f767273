import XtpRs.Lib.Run
import XtpRs.Sniff.Quic.ClientHello

/-!
# Packets that do not open

`quic_parse_one_initial_packet` records the destination connection id of a packet as soon as it has
read it, before the lengths are checked and the packet is opened, and empties the buffer when the id
is a new one. A packet that fails later, also one that was never authenticated, leaves that change
behind; it changes nothing else.

## Main definitions

* `FailsBeforeFrames`: the exits of the parser in front of the frames.

## Main results

* `quicParseOneInitialPacket_of_fails`: the state that such an exit leaves.
* `unauthenticated_packet`: when it is the state before, and what it is otherwise.
-/

namespace XtpRs.Sniff

open Lib

variable {target : Target} {prims : QuicPrimitives} {datagram : Bytes} {start : ℕ}
  {crypto : QuicCryptoReassembly} {e : UdpSniffError}

/-- The packet behind its header: its lengths are read, and it is opened. -/
def quicOpenInitialPacket (target : Target) (prims : QuicPrimitives) (datagram : Bytes)
    (packetStart : ℕ) (header : ℕ × Bytes × ℕ) : Except UdpSniffError (Bytes × ℕ) := do
  let (pnOffset, packetEnd) ← quicParseInitialLengths target datagram header.2.2
  let keys ← deriveQuicInitialKeys prims header.1 header.2.1
  let frames ← quicRemoveHeaderProtectionAndDecrypt target prims datagram packetStart pnOffset
    packetEnd keys
  return (frames, packetEnd)

/-- The packet fails with `e` before there are frames: its header is refused, or it does not open
behind the header. -/
def FailsBeforeFrames (target : Target) (prims : QuicPrimitives) (datagram : Bytes)
    (packetStart : ℕ) (e : UdpSniffError) : Prop :=
  (quicParseInitialHeader datagram packetStart >>=
    quicOpenInitialPacket target prims datagram packetStart) = .error e

/-- The parser in two parts: opening the packet, and its frames. -/
theorem quicParseOneInitialPacket_eq {header : ℕ × Bytes × ℕ}
    (hheader : quicParseInitialHeader datagram start = .ok header) :
    quicParseOneInitialPacket target prims datagram start crypto =
      match quicOpenInitialPacket target prims datagram start header with
      | .error e => (.error e, crypto.noteDcid header.2.1)
      | .ok (frames, packetEnd) =>
        match quicParseInitialFrames target frames (crypto.noteDcid header.2.1) with
        | (.error e, crypto) => (.error e, crypto)
        | (.ok (), crypto) => (.ok packetEnd, crypto) := by
  obtain ⟨version, dcid, off⟩ := header
  rw [quicParseOneInitialPacket, hheader, quicOpenInitialPacket]
  dsimp only
  cases quicParseInitialLengths target datagram off with
  | error e => rfl
  | ok lengths =>
    obtain ⟨pnOffset, packetEnd⟩ := lengths
    dsimp only [bind, Except.bind]
    cases deriveQuicInitialKeys prims version dcid with
    | error e => rfl
    | ok keys =>
      dsimp only
      cases quicRemoveHeaderProtectionAndDecrypt target prims datagram start pnOffset packetEnd
        keys with
      | error e => rfl
      | ok frames => rfl

/-- **Exits in front of the frames.** Nothing is changed when the header is refused; otherwise the
destination connection id is recorded, and nothing else is done. -/
theorem quicParseOneInitialPacket_of_fails (crypto : QuicCryptoReassembly)
    (h : FailsBeforeFrames target prims datagram start e) :
    quicParseOneInitialPacket target prims datagram start crypto =
      match quicParseInitialHeader datagram start with
      | .error e => (.error e, crypto)
      | .ok header => (.error e, crypto.noteDcid header.2.1) := by
  unfold FailsBeforeFrames at h
  cases hheader : quicParseInitialHeader datagram start with
  | error e' => rw [quicParseOneInitialPacket, hheader]
  | ok header =>
    rw [hheader] at h
    have hopen : quicOpenInitialPacket target prims datagram start header = .error e := h
    rw [quicParseOneInitialPacket_eq hheader, hopen]

theorem noteDcid_eq_self_iff {crypto : QuicCryptoReassembly} {dcid : Bytes} :
    crypto.noteDcid dcid = crypto ↔ crypto.lastDcid = some dcid := by
  constructor
  · intro h
    have hlast : (crypto.noteDcid dcid).lastDcid = some dcid := by
      unfold QuicCryptoReassembly.noteDcid
      split
      · rename_i last hlast
        split_ifs with heq
        · rw [hlast, heq]
        · rfl
      · rfl
    rwa [h] at hlast
  · intro h
    rw [QuicCryptoReassembly.noteDcid, h]
    exact if_pos rfl

/-- **Packets that do not open.** A packet that fails before there are frames leaves the state as it
was exactly when its header is refused or its destination connection id is the one recorded last. In
the other cases the id is recorded; the data collected so far is kept when it is the first id, and
dropped when there was another one before. -/
theorem unauthenticated_packet (crypto : QuicCryptoReassembly)
    (h : FailsBeforeFrames target prims datagram start e) :
    let r := quicParseOneInitialPacket target prims datagram start crypto
    r.1 = .error e ∧
    (r.2 = crypto ↔ ∀ version dcid off,
      quicParseInitialHeader datagram start = .ok (version, dcid, off) →
        crypto.lastDcid = some dcid) ∧
    ∀ version dcid off, quicParseInitialHeader datagram start = .ok (version, dcid, off) →
      (crypto.lastDcid = none → r.2 = { crypto with lastDcid := some dcid }) ∧
      ∀ last, crypto.lastDcid = some last → last ≠ dcid → r.2 = { lastDcid := some dcid } := by
  have hparse := quicParseOneInitialPacket_of_fails crypto h
  unfold FailsBeforeFrames at h
  cases hheader : quicParseInitialHeader datagram start with
  | error e' =>
    rw [hheader] at h hparse
    cases h
    rw [hparse]
    refine ⟨rfl, ⟨fun _ version dcid off hok => ?_, fun _ => rfl⟩, fun version dcid off hok => ?_⟩
    · cases hok
    · cases hok
  | ok header =>
    obtain ⟨version, dcid, off⟩ := header
    rw [hheader] at hparse
    rw [hparse]
    refine ⟨rfl, ?_, ?_⟩
    · rw [noteDcid_eq_self_iff]
      constructor
      · intro hlast version' dcid' off' hok
        cases hok
        exact hlast
      · intro hall
        exact hall version dcid off rfl
    · intro version' dcid' off' hok
      cases hok
      refine ⟨fun hnone => ?_, fun last hlast hne => ?_⟩
      · change crypto.noteDcid dcid = _
        rw [QuicCryptoReassembly.noteDcid, hnone]
      · change crypto.noteDcid dcid = _
        rw [QuicCryptoReassembly.noteDcid, hlast]
        exact if_neg hne

/-- An Initial packet of version 1 with the destination connection id `ff`, cut off behind it. -/
def truncatedPacket : Bytes := [0xc0, 0x00, 0x00, 0x00, 0x01, 0x01, 0xff]

theorem truncatedPacket_fails :
    FailsBeforeFrames .bits64 samplePrimitives truncatedPacket 0 .insufficientPrefix :=
  rfl

/-- Half of a ClientHello has been collected under another connection id. -/
theorem unauthenticated_packet_truncated :
    let crypto := feedAll .bits64 samplePrimitives [sampleFirst]
    crypto.lastDcid = some sampleDcid ∧ crypto.buf.length = 60 ∧
    FailsBeforeFrames .bits64 samplePrimitives truncatedPacket 0 .insufficientPrefix ∧
    (quicParseOneInitialPacket .bits64 samplePrimitives truncatedPacket 0 crypto).2 =
      { lastDcid := some [0xff] } := by
  intro crypto
  have hlast : crypto.lastDcid = some sampleDcid := by decide +kernel
  have hpacket := unauthenticated_packet crypto truncatedPacket_fails
  exact ⟨hlast, by decide +kernel, truncatedPacket_fails,
    (hpacket.2.2 1 [0xff] 7 (by decide)).2 sampleDcid hlast (by decide)⟩

/-- Sniffing one datagram of a flow. -/
def sniffStep (target : Target) (prims : QuicPrimitives) (crypto : QuicCryptoReassembly)
    (datagram : Bytes) : Option QuicCryptoReassembly :=
  some (sniffQuicSniFromDatagramWithReassembly target prims datagram crypto).2

/-- Half of a ClientHello has been collected, and a truncated packet with another connection id
drops it. -/
theorem truncatedPacket_drops :
    let crypto := feedAll .bits64 samplePrimitives [sampleFirst]
    Reachable (sniffStep .bits64 samplePrimitives) {} crypto ∧ crypto.buf.length = 60 ∧
    FailsBeforeFrames .bits64 samplePrimitives truncatedPacket 0 .insufficientPrefix ∧
    (quicParseOneInitialPacket .bits64 samplePrimitives truncatedPacket 0 crypto).2 =
      { lastDcid := some [0xff] } ∧
    (quicParseOneInitialPacket .bits64 samplePrimitives truncatedPacket 0 crypto).2 ≠ crypto := by
  refine ⟨.tail (a := sampleFirst.encode) .refl trivial rfl, ?_, truncatedPacket_fails, ?_, ?_⟩
  · decide +kernel
  · decide +kernel
  · decide +kernel

end XtpRs.Sniff
