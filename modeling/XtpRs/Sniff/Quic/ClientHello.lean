import XtpRs.Sniff.Quic.InitialPacket

/-!
# Reassembly of a ClientHello

A ClientHello is cut into pieces, in any way, and the pieces travel in the CRYPTO frames of Initial
packets, in any order, with overlaps and repetitions, several packets to a datagram. The sniffer
asks for more data until the pieces it has seen cover the message, and answers the datagram that
completes the cover with the verdict on the message.

## Main definitions

* `ClientHello`: the message.
* `Datagram`: packets with their frames, and what follows them.
* `Datagram.Carries`: the CRYPTO frames of the datagram are pieces of the message.
* `Receiving`: the state of a session that has seen pieces of the message.

## Main results

* `datagramLoop_encode`: the packets of a datagram.
* `Receiving.feed`: one datagram.
* `clientHello_reassembled`: sequences of datagrams.
-/

namespace XtpRs.Sniff

open Lib QuicCryptoReassembly

/-! ### The message -/

theorem TlsSniffError.IsVerdict.toUdp {e : TlsSniffError} (h : e.IsVerdict) :
    e.toUdp ≠ .insufficientPrefix ∧ e.toUdp ≠ .protocolNotMatched := by
  cases e <;> first | exact absurd h id | decide

/-- A TLS handshake message of type ClientHello that fits into the reassembly buffer. -/
structure ClientHello where
  body : Bytes
  length_le : 4 + body.length ≤ quicCryptoReassemblyCap

namespace ClientHello

/-- Type, length and body. -/
def message (hello : ClientHello) : Bytes :=
  0x01 :: (beBytes 3 hello.body.length ++ hello.body)

/-- The result of the parser on the body, with the errors of UDP sniffers. -/
def verdict (hello : ClientHello) : Except UdpSniffError Str :=
  match parseSniFromClientHelloBody hello.body with
  | .ok host => .ok host
  | .error e => .error e.toUdp

variable (hello : ClientHello)

theorem length_message : hello.message.length = 4 + hello.body.length := by
  rw [message, List.length_cons, List.length_append, length_beBytes]
  omega

/-- The length in the header of a beginning of the message that has its header. -/
theorem beU24_take_message {n : ℕ} (hn : 4 ≤ n) :
    beU24 (slice (hello.message.take n) 1 4) = .ok hello.body.length := by
  have hle := hello.length_le
  have hcap : quicCryptoReassemblyCap < 256 ^ 3 := by decide
  have hslice : slice (hello.message.take n) 1 4 = beBytes 3 hello.body.length := by
    obtain ⟨k, rfl⟩ : ∃ k, n = k + 4 := ⟨n - 4, by omega⟩
    rw [slice, message, List.take_succ_cons, List.drop_one, List.tail_cons, List.take_take,
      Nat.min_eq_left (by omega), List.take_left' (length_beBytes 3 _)]
  rw [hslice]
  exact beU24_beBytes (by omega)

/-- A beginning of the message that is not all of it asks for more. -/
theorem quicParseTlsClientHelloFromCrypto_take {n : ℕ} (hn : n < hello.message.length) :
    quicParseTlsClientHelloFromCrypto (hello.message.take n) = .error .insufficientPrefix := by
  have hlength := hello.length_message
  have htake : (hello.message.take n).length = n := by
    rw [List.length_take]
    omega
  by_cases h4 : n < 4
  · rw [quicParseTlsClientHelloFromCrypto, if_pos (by omega)]
  · have hhead : (hello.message.take n).getD 0 0 = 0x01 := by
      obtain ⟨k, rfl⟩ : ∃ k, n = k + 1 := ⟨n - 1, by omega⟩
      rfl
    have hle := hello.length_le
    rw [quicParseTlsClientHelloFromCrypto, if_neg (by omega), hhead, if_neg (not_not.mpr rfl),
      hello.beU24_take_message (by omega)]
    dsimp only
    rw [if_neg (by omega), if_pos (by omega)]

/-- The message gives the verdict on its body. -/
theorem quicParseTlsClientHelloFromCrypto_message :
    quicParseTlsClientHelloFromCrypto hello.message = hello.verdict := by
  have hlength := hello.length_message
  have hle := hello.length_le
  have hu24 := hello.beU24_take_message (n := hello.message.length) (by omega)
  rw [List.take_length] at hu24
  have hhead : hello.message.getD 0 0 = 0x01 := rfl
  have hbody : slice hello.message 4 (4 + hello.body.length) = hello.body := by
    have hsplit : hello.message = (0x01 :: beBytes 3 hello.body.length) ++ hello.body := rfl
    have hstart : Remaining hello.message 0
        ((0x01 :: beBytes 3 hello.body.length) ++ (hello.body ++ [])) := by
      rw [List.append_nil, ← hsplit]
      exact .start _
    have hadvance := hstart.advance
    rw [List.length_cons, length_beBytes] at hadvance
    exact hadvance.slice_self
  rw [quicParseTlsClientHelloFromCrypto, if_neg (by omega), hhead, if_neg (not_not.mpr rfl), hu24]
  dsimp only
  rw [if_neg (by omega), if_neg (by omega), hbody]
  rfl

/-- The verdict does not ask for more data, nor does it deny that this is QUIC. -/
theorem verdict_error {e : UdpSniffError} (h : hello.verdict = .error e) :
    e ≠ .insufficientPrefix ∧ e ≠ .protocolNotMatched := by
  unfold verdict at h
  split at h
  · cases h
  · rename_i error herror
    cases h
    exact (parseSniFromClientHelloBody_error hello.body error herror).toUdp

/-- The outcome of the verdict. -/
theorem feedOutcome_verdict : feedOutcome hello.verdict =
    match parseSniFromClientHelloBody hello.body with
    | .ok host => .matched .quicSni host
    | .error e => .failed .quicSni e.toUdp := by
  cases hparse : parseSniFromClientHelloBody hello.body with
  | ok host =>
    rw [verdict, hparse]
    rfl
  | error e =>
    have herror : hello.verdict = .error e.toUdp := by
      rw [verdict, hparse]
    obtain ⟨hmore, hmatched⟩ := hello.verdict_error herror
    rw [herror, feedOutcome]
    · exact hmatched
    · exact hmore

end ClientHello

/-! ### Pieces seen -/

/-- The positions of the items of a list together. -/
def covered {α : Type} (pos : α → Set ℕ) (items : List α) : Set ℕ :=
  {i | ∃ a ∈ items, i ∈ pos a}

theorem covered_nil {α : Type} (pos : α → Set ℕ) : covered pos [] = ∅ := by
  simp [covered]

theorem covered_append {α : Type} (pos : α → Set ℕ) (items items' : List α) :
    covered pos (items ++ items') = covered pos items ∪ covered pos items' := by
  ext i
  simp [covered, or_and_right, exists_or]

theorem covered_cons {α : Type} (pos : α → Set ℕ) (a : α) (items : List α) :
    covered pos (a :: items) = pos a ∪ covered pos items := by
  ext i
  simp [covered]

namespace Frame

/-- The positions of the data of a CRYPTO frame. -/
def positions : Frame → Set ℕ
  | crypto f => QuicCryptoReassembly.positions f.offset.value f.data
  | _ => ∅

/-- The data of a CRYPTO frame is a piece of the message. -/
def IsPieceOf (message : Bytes) : Frame → Prop
  | crypto f => IsPiece message f.offset.value f.data
  | _ => True

end Frame

variable {hello : ClientHello} {dcid : Bytes} {seen : Set ℕ} {c : QuicCryptoReassembly}

theorem ClientHello.length_message_le (hello : ClientHello) :
    hello.message.length ≤ quicCryptoReassemblyCap := by
  rw [hello.length_message]
  exact hello.length_le

theorem Frame.IsPieceOf.fits {f : Frame} (h : f.IsPieceOf hello.message) : f.Fits := by
  cases f with
  | crypto f => exact h.le.trans hello.length_message_le
  | _ => trivial

/-- The session has seen the positions of a set of the message, in packets with one destination
connection id. -/
structure Receiving (hello : ClientHello) (dcid : Bytes) (seen : Set ℕ)
    (c : QuicCryptoReassembly) : Prop where
  holds : Holds hello.message seen c
  lastDcid : ∀ last ∈ c.lastDcid, last = dcid

namespace Receiving

theorem new (hello : ClientHello) (dcid : Bytes) : Receiving hello dcid ∅ {} where
  holds := .new hello.message
  lastDcid last hlast := by cases hlast

theorem noteDcid (h : Receiving hello dcid seen c) :
    Receiving hello dcid seen (c.noteDcid dcid) := by
  unfold QuicCryptoReassembly.noteDcid
  split
  · rename_i last hlast
    rw [if_pos (h.lastDcid last hlast)]
    exact h
  · refine ⟨⟨⟨?_, ?_, ?_, ?_, ?_⟩, ?_, ?_, ?_⟩, fun last hlast => ?_⟩
    · exact h.holds.wf.length_eq
    · exact h.holds.wf.le_cap
    · exact h.holds.wf.contiguous_le
    · exact h.holds.wf.contiguous
    · exact h.holds.wf.gap
    · exact h.holds.length_le
    · exact h.holds.present_iff
    · exact h.holds.buf_eq
    · exact (Option.mem_some_iff.mp hlast).symm

theorem apply {f : Frame} (h : Receiving hello dcid seen c) (hpiece : f.IsPieceOf hello.message) :
    Receiving hello dcid (seen ∪ f.positions) (f.apply c) := by
  cases f with
  | crypto f => exact ⟨h.holds.store hpiece hello.length_message_le, h.lastDcid⟩
  | _ =>
    change Receiving hello dcid (seen ∪ ∅) c
    rwa [Set.union_empty]

theorem foldl_apply {frames : List Frame} (h : Receiving hello dcid seen c)
    (hpieces : ∀ f ∈ frames, f.IsPieceOf hello.message) :
    Receiving hello dcid (seen ∪ covered Frame.positions frames) (frames.foldl Frame.apply c) := by
  induction frames generalizing seen c with
  | nil =>
    rw [covered_nil, Set.union_empty]
    exact h
  | cons f frames ih =>
    rw [covered_cons, ← Set.union_assoc]
    exact ih (h.apply (hpieces f List.mem_cons_self))
      fun f' hf' => hpieces f' (List.mem_cons_of_mem f hf')

/-- While the pieces do not cover the message, the parser asks for more. -/
theorem parse_of_not_covers (h : Receiving hello dcid seen c)
    (hnot : ¬Covers hello.message seen) :
    quicParseTlsClientHelloFromCrypto c.contiguous = .error .insufficientPrefix := by
  rw [h.holds.contiguous_eq]
  refine hello.quicParseTlsClientHelloFromCrypto_take (lt_of_le_of_ne h.holds.contiguousLen_le ?_)
  exact fun heq => hnot (h.holds.contiguousLen_eq_iff.mp heq)

/-- When they cover it, the parser gives the verdict. -/
theorem parse_of_covers (h : Receiving hello dcid seen c) (hcovers : Covers hello.message seen) :
    quicParseTlsClientHelloFromCrypto c.contiguous = hello.verdict := by
  rw [h.holds.contiguous_eq, h.holds.contiguousLen_eq_iff.mpr hcovers, List.take_length]
  exact hello.quicParseTlsClientHelloFromCrypto_message

end Receiving

/-! ### Datagrams -/

/-- The positions of the pieces in a packet, given with its frames. -/
def packetPositions (packet : InitialPacket × List Frame) : Set ℕ :=
  covered Frame.positions packet.2

/-- Packets one after the other. -/
def encodePackets (packets : List (InitialPacket × List Frame)) : Bytes :=
  packets.flatMap fun packet => packet.1.encode

/-- One or more Initial packets, given with their frames, and bytes behind them that are no Initial
packet. -/
structure Datagram where
  packets : List (InitialPacket × List Frame)
  trailing : Bytes
  packets_ne : packets ≠ []
  not_initial : ¬IsLongHeaderInitial trailing
  length_le : (encodePackets packets ++ trailing).length ≤ quicSniInputCap

/-- The packet opens to its frames, which carry pieces of the message only. -/
structure PacketCarries (target : Target) (prims : QuicPrimitives) (hello : ClientHello)
    (dcid : Bytes) (packet : InitialPacket × List Frame) : Prop where
  dcid_eq : packet.1.dcid = dcid
  opens : packet.1.Opens target prims (encodeFrames packet.2)
  pieces : ∀ f ∈ packet.2, f.IsPieceOf hello.message

variable {target : Target} {prims : QuicPrimitives}

theorem Receiving.foldl_noteDcid {packet : InitialPacket × List Frame}
    (h : Receiving hello dcid seen c) (hpacket : PacketCarries target prims hello dcid packet) :
    Receiving hello dcid (seen ∪ packetPositions packet)
      (packet.2.foldl Frame.apply (c.noteDcid packet.1.dcid)) := by
  rw [hpacket.dcid_eq]
  exact h.noteDcid.foldl_apply hpacket.pieces

/-- What the loop over the packets of a datagram leaves when the positions seen before and those of
the packets are `after`: it asks for more while they do not cover the message, and gives the verdict
when they do. -/
def LoopResult (hello : ClientHello) (dcid : Bytes) (after : Set ℕ)
    (r : Except UdpSniffError Str × QuicCryptoReassembly) : Prop :=
  (¬Covers hello.message after →
    r.1 = .error .insufficientPrefix ∧ Receiving hello dcid after r.2) ∧
  (Covers hello.message after → r.1 = hello.verdict)

theorem LoopResult.of_covers {after : Set ℕ} {r : Except UdpSniffError Str × QuicCryptoReassembly}
    (hcovers : Covers hello.message after) (h : r.1 = hello.verdict) :
    LoopResult hello dcid after r :=
  ⟨fun hnot => absurd hcovers hnot, fun _ => h⟩

/-- Behind the packets the loop ends with nothing but a request for more. -/
theorem datagramLoop_trailing {datagram trailing : Bytes} {fuel off : ℕ}
    (h : Remaining datagram off trailing) (hnot : ¬IsLongHeaderInitial trailing) :
    datagramLoop target prims datagram fuel off true c = (.error .insufficientPrefix, c) := by
  cases fuel with
  | zero => rfl
  | succ fuel =>
    rw [datagramLoop]
    by_cases hend : datagram.length ≤ off
    · rw [if_pos hend]
      rfl
    · rw [if_neg hend]
      obtain ⟨e, hone, rfl | rfl⟩ := quicParseOneInitialPacket_of_not target prims c h hnot
      · rw [hone]
        rfl
      · rw [hone]

/-- **The packets of a datagram.** -/
theorem datagramLoop_encode {datagram trailing : Bytes} {fuel off : ℕ} {sawInitial : Bool}
    {packets : List (InitialPacket × List Frame)} (hdatagram : datagram.length ≤ quicSniInputCap)
    (h : Remaining datagram off (encodePackets packets ++ trailing))
    (hnot : ¬IsLongHeaderInitial trailing)
    (hpackets : ∀ packet ∈ packets, PacketCarries target prims hello dcid packet)
    (hfuel : packets.length ≤ fuel) (hsaw : sawInitial = true ∨ packets ≠ [])
    (hseen : ¬Covers hello.message seen) (hreceiving : Receiving hello dcid seen c) :
    LoopResult hello dcid (seen ∪ covered packetPositions packets)
      (datagramLoop target prims datagram fuel off sawInitial c) := by
  induction packets generalizing fuel off sawInitial seen c with
  | nil =>
    obtain rfl : sawInitial = true := hsaw.resolve_right (not_not.mpr rfl)
    rw [covered_nil, Set.union_empty, datagramLoop_trailing h hnot]
    exact ⟨fun _ => ⟨rfl, hreceiving⟩, fun hcovers => absurd hcovers hseen⟩
  | cons packet packets ih =>
    obtain ⟨fuel, rfl⟩ : ∃ n, fuel = n + 1 := ⟨fuel - 1, by rw [List.length_cons] at hfuel; omega⟩
    rw [List.length_cons] at hfuel
    rw [encodePackets, List.flatMap_cons, List.append_assoc] at h
    have hpacket := hpackets packet List.mem_cons_self
    have hafter := hreceiving.foldl_noteDcid hpacket
    have hlength := h.length_eq
    have hpos := packet.1.length_encode_pos
    rw [List.length_append] at hlength
    rw [covered_cons, ← Set.union_assoc, datagramLoop, if_neg (by omega),
      InitialPacket.quicParseOneInitialPacket_encode hdatagram h hpacket.opens
        fun f hf => (hpacket.pieces f hf).fits]
    dsimp only
    by_cases hcovers : Covers hello.message (seen ∪ packetPositions packet)
    · refine .of_covers (fun i hi => .inl (hcovers i hi)) ?_
      rw [hafter.parse_of_covers hcovers]
      cases hverdict : hello.verdict with
      | ok host => rfl
      | error e =>
        have hmore := (hello.verdict_error hverdict).1
        cases e <;> first | exact absurd rfl hmore | rfl
    · rw [hafter.parse_of_not_covers hcovers]
      exact ih h.advance (fun p hp => hpackets p (List.mem_cons_of_mem packet hp)) (by omega)
        (.inl rfl) hcovers hafter

theorem length_le_length_encodePackets (packets : List (InitialPacket × List Frame)) :
    packets.length ≤ (encodePackets packets).length := by
  induction packets with
  | nil => rfl
  | cons packet packets ih =>
    have hpos := packet.1.length_encode_pos
    rw [encodePackets] at ih
    rw [encodePackets, List.flatMap_cons, List.length_append, List.length_cons]
    omega

namespace Datagram

/-- The bytes of the datagram. -/
def encode (d : Datagram) : Bytes := encodePackets d.packets ++ d.trailing

/-- The positions of the pieces in the datagram. -/
def positions (d : Datagram) : Set ℕ := covered packetPositions d.packets

/-- Every packet carries pieces of the message and has the destination connection id. -/
def Carries (target : Target) (prims : QuicPrimitives) (hello : ClientHello) (dcid : Bytes)
    (d : Datagram) : Prop :=
  ∀ packet ∈ d.packets, PacketCarries target prims hello dcid packet

theorem encode_eq_cons (d : Datagram) :
    ∃ first rest, d.encode = first :: rest ∧ first &&& 0x80 ≠ 0 ∧ first &&& 0x40 ≠ 0 := by
  obtain ⟨packet, packets, hpackets⟩ := List.exists_cons_of_ne_nil d.packets_ne
  rw [encode, hpackets, encodePackets, List.flatMap_cons, InitialPacket.encode,
    InitialPacket.header]
  exact ⟨_, _, rfl, packet.1.long_header⟩

/-- **One datagram.** -/
theorem sniff_encode {d : Datagram} (hd : d.Carries target prims hello dcid)
    (hseen : ¬Covers hello.message seen) (h : Receiving hello dcid seen c) :
    LoopResult hello dcid (seen ∪ d.positions)
      (sniffQuicSniFromDatagramWithReassembly target prims d.encode c) := by
  have hlength : d.encode.length ≤ quicSniInputCap := d.length_le
  have hcount := length_le_length_encodePackets d.packets
  have hfuel : d.packets.length ≤ d.encode.length := by
    rw [encode, List.length_append]
    omega
  obtain ⟨first, rest, hencode, hlong⟩ := d.encode_eq_cons
  have hsniff : sniffQuicSniFromDatagramWithReassembly target prims d.encode c =
      datagramLoop target prims d.encode d.encode.length 0 false c := by
    rw [sniffQuicSniFromDatagramWithReassembly, List.take_of_length_le hlength, hencode]
    exact if_neg (not_or.mpr hlong)
  rw [hsniff]
  exact datagramLoop_encode hlength (.start _) d.not_initial hd hfuel (.inr d.packets_ne) hseen h

end Datagram

/-! ### Sessions -/

/-- The session after the datagrams of a list. -/
def feedAll (target : Target) (prims : QuicPrimitives) (datagrams : List Datagram) :
    QuicCryptoReassembly :=
  datagrams.foldl (fun c d => ((quicSniUdpSniffer target prims).feed c d.encode).2) {}

/-- While the message is not covered, the session holds the pieces seen so far. -/
theorem Receiving.feedAll {datagrams : List Datagram}
    (h : ∀ d ∈ datagrams, d.Carries target prims hello dcid)
    (hseen : ¬Covers hello.message (covered Datagram.positions datagrams)) :
    Receiving hello dcid (covered Datagram.positions datagrams)
      (feedAll target prims datagrams) := by
  induction datagrams using List.reverseRecOn with
  | nil =>
    rw [covered_nil]
    exact .new hello dcid
  | append_singleton before d ih =>
    rw [covered_append, covered_cons, covered_nil, Set.union_empty] at hseen ⊢
    have hbefore : ¬Covers hello.message (covered Datagram.positions before) :=
      fun hcovers => hseen fun i hi => .inl (hcovers i hi)
    have hreceiving := ih (fun d' hd' => h d' (List.mem_append_left _ hd')) hbefore
    have hd := h d (List.mem_append_right _ List.mem_cons_self)
    rw [Sniff.feedAll, List.foldl_append]
    exact ((Datagram.sniff_encode hd hbefore hreceiving).1 hseen).2

/-- **Reassembly.** Let every datagram so far carry pieces of one ClientHello, cut, ordered,
repeated and overlapping in any way, in packets with one destination connection id. While the pieces
do not cover the message the sniffer asks for more; the datagram that completes the cover gets the
host name of the message, or the error of its parser. -/
theorem clientHello_reassembled (target : Target) (prims : QuicPrimitives) (hello : ClientHello)
    (dcid : Bytes) (before : List Datagram) (d : Datagram)
    (h : ∀ d' ∈ before ++ [d], d'.Carries target prims hello dcid) :
    let outcome :=
      ((quicSniUdpSniffer target prims).feed (feedAll target prims before) d.encode).1
    (¬Covers hello.message (covered Datagram.positions (before ++ [d])) →
      outcome = .needMore .quicSni) ∧
    (¬Covers hello.message (covered Datagram.positions before) →
      Covers hello.message (covered Datagram.positions (before ++ [d])) →
      outcome =
        match parseSniFromClientHelloBody hello.body with
        | .ok host => .matched .quicSni host
        | .error e => .failed .quicSni e.toUdp) := by
  intro outcome
  have hd := h d (List.mem_append_right _ List.mem_cons_self)
  have hcarries : ∀ d' ∈ before, d'.Carries target prims hello dcid :=
    fun d' hd' => h d' (List.mem_append_left _ hd')
  have hresult : ¬Covers hello.message (covered Datagram.positions before) →
      LoopResult hello dcid (covered Datagram.positions (before ++ [d]))
        (sniffQuicSniFromDatagramWithReassembly target prims d.encode
          (feedAll target prims before)) := by
    intro hbefore
    rw [covered_append, covered_cons, covered_nil, Set.union_empty]
    exact Datagram.sniff_encode hd hbefore (.feedAll hcarries hbefore)
  constructor
  · intro hnot
    have hbefore : ¬Covers hello.message (covered Datagram.positions before) := by
      intro hcovers
      rw [covered_append] at hnot
      exact hnot fun i hi => .inl (hcovers i hi)
    have hmore := ((hresult hbefore).1 hnot).1
    change feedOutcome _ = _
    rw [hmore]
    rfl
  · intro hbefore hcovers
    have hverdict := (hresult hbefore).2 hcovers
    change feedOutcome _ = _
    rw [hverdict]
    exact hello.feedOutcome_verdict

/-! ### A connection

Two Initial packets of version 1 with the two overlapping halves of a ClientHello for the host
`a.io`, the later half first. -/

def sampleDcid : Bytes := [0x83, 0x94, 0xc8, 0xf0, 0x3e, 0x51, 0x57, 0x08]

/-- The ClientHello. -/
def sampleHello : ClientHello where
  body :=
    [0x03, 0x03, 0x00, 0x01, 0x02, 0x03, 0x04, 0x05, 0x06, 0x07, 0x08, 0x09, 0x0a, 0x0b, 0x0c,
      0x0d, 0x0e, 0x0f, 0x10, 0x11, 0x12, 0x13, 0x14, 0x15, 0x16, 0x17, 0x18, 0x19, 0x1a, 0x1b,
      0x1c, 0x1d, 0x1e, 0x1f, 0x00, 0x00, 0x02, 0x13, 0x01, 0x01, 0x00, 0x00, 0x0d, 0x00, 0x00,
      0x00, 0x09, 0x00, 0x07, 0x00, 0x00, 0x04, 0x61, 0x2e, 0x69, 0x6f]
  length_le := by decide

def sampleInitialSecret : Bytes :=
  [0x7d, 0xb5, 0xdf, 0x06, 0xe7, 0xa6, 0x9e, 0x43, 0x24, 0x96, 0xad, 0xed, 0xb0, 0x08, 0x51, 0x92,
    0x35, 0x95, 0x22, 0x15, 0x96, 0xae, 0x2a, 0xe9, 0xfb, 0x81, 0x15, 0xc1, 0xe9, 0xed, 0x0a, 0x44]

def sampleClientSecret : Bytes :=
  [0xc0, 0x0c, 0xf1, 0x51, 0xca, 0x5b, 0xe0, 0x75, 0xed, 0x0e, 0xbf, 0xb5, 0xc8, 0x03, 0x23, 0xc4,
    0x2d, 0x6b, 0x7d, 0xb6, 0x78, 0x81, 0x28, 0x9a, 0xf4, 0x00, 0x8f, 0x1f, 0x6c, 0x35, 0x7a, 0xea]

def sampleKeys : QuicInitialKeys where
  hpKey :=
    [0x9f, 0x50, 0x44, 0x9e, 0x04, 0xa0, 0xe8, 0x10, 0x28, 0x3a, 0x1e, 0x99, 0x33, 0xad, 0xed, 0xd2]
  key :=
    [0x1f, 0x36, 0x96, 0x13, 0xdd, 0x76, 0xd5, 0x46, 0x77, 0x30, 0xef, 0xcb, 0xe3, 0xb1, 0xa2, 0x2d]
  iv := [0xfa, 0x04, 0x4b, 0x2f, 0x42, 0xa3, 0xfd, 0x3b, 0x46, 0xfb, 0x25, 0x5c]

/-- The first packet carries the end of the message. -/
def sampleTail : InitialPacket × List Frame where
  fst :=
    { first := 0xc1
      version := quicVersionV1
      dcid := sampleDcid
      scid := []
      tokenLen := ⟨0, 0, by decide⟩
      token := []
      length := ⟨50, 1, by decide⟩
      body :=
        [0x04, 0x46, 0xaa, 0x0f, 0xc2, 0x83, 0x66, 0xb8, 0x3b, 0xde, 0xb8, 0x50, 0x95, 0xc6, 0x8a,
          0x64, 0xc2, 0x23, 0x10, 0x10, 0xf3, 0xab, 0x50, 0x17, 0x12, 0xb1, 0x71, 0xbf, 0x6e, 0x9e,
          0x47, 0x2e, 0xdd, 0x63, 0xa3, 0xac, 0x1c, 0xfa, 0x49, 0xe3, 0x28, 0x1b, 0x96, 0x9f, 0x19,
          0x0c, 0x95, 0x3d, 0xe5, 0x68]
      long_header := by decide
      salt := rfl
      initial := by decide
      dcid_le := by decide
      scid_le := by decide
      tokenLen_eq := rfl
      length_eq := rfl
      body_ne := by decide }
  snd := [.crypto ⟨⟨30, 0, by decide⟩, ⟨30, 0, by decide⟩, slice sampleHello.message 30 60, rfl⟩]

/-- The second packet carries the beginning of the message and one byte more. -/
def sampleHead : InitialPacket × List Frame where
  fst :=
    { first := 0xc7
      version := quicVersionV1
      dcid := sampleDcid
      scid := []
      tokenLen := ⟨0, 0, by decide⟩
      token := []
      length := ⟨51, 1, by decide⟩
      body :=
        [0x25, 0x6c, 0x3a, 0xb4, 0xbd, 0x07, 0x87, 0xfa, 0xcd, 0xe2, 0xdd, 0x9d, 0xa6, 0x31, 0x78,
          0xe3, 0x23, 0x64, 0x6f, 0x83, 0x81, 0xa8, 0xfb, 0x6d, 0x06, 0x8b, 0xf0, 0x35, 0x47, 0xf6,
          0x4a, 0x11, 0xe4, 0x2e, 0xc3, 0x68, 0x79, 0x45, 0x12, 0x3c, 0x7d, 0x8f, 0x32, 0xf7, 0x0e,
          0x99, 0xf2, 0x8b, 0xa5, 0x58, 0x86]
      long_header := by decide
      salt := rfl
      initial := by decide
      dcid_le := by decide
      scid_le := by decide
      tokenLen_eq := rfl
      length_eq := rfl
      body_ne := by decide }
  snd := [.crypto ⟨⟨0, 0, by decide⟩, ⟨31, 0, by decide⟩, slice sampleHello.message 0 31, rfl⟩]

/-- The values of HKDF-SHA256, AES-128 and AES-128-GCM that the two packets need. -/
def samplePrimitives : QuicPrimitives where
  hkdfExtract salt ikm :=
    if salt = quicV1InitialSalt ∧ ikm = sampleDcid then sampleInitialSecret else []
  hkdfExpand secret info outLen :=
    List.lookup (secret, info, outLen)
      [((sampleInitialSecret, [0x00, 0x20, 0x0f] ++ tls13Label ++ labelClientIn ++ [0x00], 32),
          sampleClientSecret),
        ((sampleClientSecret, [0x00, 0x10, 0x0d] ++ tls13Label ++ labelQuicHp ++ [0x00], 16),
          sampleKeys.hpKey),
        ((sampleClientSecret, [0x00, 0x10, 0x0e] ++ tls13Label ++ labelQuicKey ++ [0x00], 16),
          sampleKeys.key),
        ((sampleClientSecret, [0x00, 0x0c, 0x0d] ++ tls13Label ++ labelQuicIv ++ [0x00], 12),
          sampleKeys.iv)]
  aesEncryptBlock key block :=
    (List.lookup (key, block)
      [((sampleKeys.hpKey,
          [0xc2, 0x83, 0x66, 0xb8, 0x3b, 0xde, 0xb8, 0x50, 0x95, 0xc6, 0x8a, 0x64, 0xc2, 0x23,
            0x10, 0x10]),
          [0x11, 0x04, 0xa3, 0x41, 0xb2, 0x40, 0xb2, 0x10, 0x28, 0x59, 0x7d, 0xed, 0x5a, 0x1d,
            0xae, 0x72]),
        ((sampleKeys.hpKey,
          [0xbd, 0x07, 0x87, 0xfa, 0xcd, 0xe2, 0xdd, 0x9d, 0xa6, 0x31, 0x78, 0xe3, 0x23, 0x64,
            0x6f, 0x83]),
          [0xf7, 0x24, 0x5f, 0x68, 0x7f, 0x98, 0x34, 0xee, 0x32, 0x37, 0xde, 0x0c, 0x31, 0x8e,
            0x38, 0x06])]).getD []
  aeadDecrypt key nonce ciphertext header :=
    List.lookup (key, nonce, ciphertext, header)
      [((sampleKeys.key,
          [0xfa, 0x04, 0x4b, 0x2f, 0x42, 0xa3, 0xfd, 0x3b, 0x46, 0xfb, 0x25, 0x5c],
          sampleTail.1.body.drop 1,
          [0xc0, 0x00, 0x00, 0x00, 0x01, 0x08, 0x83, 0x94, 0xc8, 0xf0, 0x3e, 0x51, 0x57, 0x08,
            0x00, 0x00, 0x40, 0x32, 0x00]),
          encodeFrames sampleTail.2),
        ((sampleKeys.key,
          [0xfa, 0x04, 0x4b, 0x2f, 0x42, 0xa3, 0xfd, 0x3b, 0x46, 0xfb, 0x25, 0x5d],
          sampleHead.1.body.drop 1,
          [0xc0, 0x00, 0x00, 0x00, 0x01, 0x08, 0x83, 0x94, 0xc8, 0xf0, 0x3e, 0x51, 0x57, 0x08,
            0x00, 0x00, 0x40, 0x33, 0x01]),
          encodeFrames sampleHead.2)]

/-- Every slice of a message is a piece of it. -/
theorem isPiece_slice {message : Bytes} {a b : ℕ} (hab : a ≤ b) (hb : b ≤ message.length) :
    IsPiece message a (slice message a b) := by
  have hlength := length_slice (a := a) hb
  refine ⟨by omega, fun i hi => ?_⟩
  rw [slice, List.getElem?_take_of_lt (by omega), List.getElem?_drop]

theorem not_isLongHeaderInitial_of_length_lt {bytes : Bytes} (h : bytes.length < 6) :
    ¬IsLongHeaderInitial bytes := by
  rintro ⟨first, version, dcidLen, dcid, rest, rfl, -, hversion, -⟩
  simp only [List.length_cons, List.length_append] at h
  omega

/-- The end of the message comes first. -/
def sampleFirst : Datagram where
  packets := [sampleTail]
  trailing := []
  packets_ne := List.cons_ne_nil _ _
  not_initial := not_isLongHeaderInitial_of_length_lt (by decide)
  length_le := by decide

/-- The beginning of the message comes second, with bytes of another packet behind it. -/
def sampleSecond : Datagram where
  packets := [sampleHead]
  trailing := [0x40, 0x00]
  packets_ne := List.cons_ne_nil _ _
  not_initial := not_isLongHeaderInitial_of_length_lt (by decide)
  length_le := by decide

theorem sampleFirst_carries (target : Target) :
    sampleFirst.Carries target samplePrimitives sampleHello sampleDcid := by
  refine List.forall_mem_singleton.mpr ⟨rfl, ⟨⟨sampleKeys, rfl, ?_⟩, by decide⟩, ?_⟩
  · cases target <;> rfl
  · exact List.forall_mem_singleton.mpr (isPiece_slice (by decide) (by decide))

theorem sampleSecond_carries (target : Target) :
    sampleSecond.Carries target samplePrimitives sampleHello sampleDcid := by
  refine List.forall_mem_singleton.mpr ⟨rfl, ⟨⟨sampleKeys, rfl, ?_⟩, by decide⟩, ?_⟩
  · cases target <;> rfl
  · exact List.forall_mem_singleton.mpr (isPiece_slice (by decide) (by decide))

theorem positions_sampleFirst : sampleFirst.positions = Set.Ico 30 60 := by
  simp only [Datagram.positions, sampleFirst, packetPositions, sampleTail, covered_cons,
    covered_nil, Set.union_empty, Frame.positions, QuicCryptoReassembly.positions]
  rfl

theorem positions_sampleSecond : sampleSecond.positions = Set.Ico 0 31 := by
  simp only [Datagram.positions, sampleSecond, packetPositions, sampleHead, covered_cons,
    covered_nil, Set.union_empty, Frame.positions, QuicCryptoReassembly.positions]
  rfl

/-- The first datagram asks for more, the second completes the message. -/
theorem clientHello_reassembled_sample :
    let feed := (quicSniUdpSniffer .bits64 samplePrimitives).feed
    (feed (feedAll .bits64 samplePrimitives []) sampleFirst.encode).1 = .needMore .quicSni ∧
    (feed (feedAll .bits64 samplePrimitives [sampleFirst]) sampleSecond.encode).1 =
      .matched .quicSni [0x61, 0x2e, 0x69, 0x6f] := by
  have hfirst : ¬Covers sampleHello.message (covered Datagram.positions [sampleFirst]) := by
    intro hcovers
    have hzero := hcovers 0 (by decide)
    rw [covered_cons, covered_nil, Set.union_empty, positions_sampleFirst] at hzero
    exact absurd hzero.1 (by decide)
  have hboth : Covers sampleHello.message
      (covered Datagram.positions ([sampleFirst] ++ [sampleSecond])) := by
    intro i hi
    have hlt : i < 60 := hi
    rw [covered_append, covered_cons, covered_cons, covered_nil, Set.union_empty, Set.union_empty,
      positions_sampleFirst, positions_sampleSecond]
    by_cases hhead : i < 31
    · exact .inr ⟨Nat.zero_le i, hhead⟩
    · exact .inl ⟨by omega, hlt⟩
  have hparse : parseSniFromClientHelloBody sampleHello.body = .ok [0x61, 0x2e, 0x69, 0x6f] := by
    decide +kernel
  refine ⟨(clientHello_reassembled .bits64 samplePrimitives sampleHello sampleDcid [] sampleFirst
    ?_).1 hfirst, ?_⟩
  · exact List.forall_mem_singleton.mpr (sampleFirst_carries _)
  · have hmatched := (clientHello_reassembled .bits64 samplePrimitives sampleHello sampleDcid
      [sampleFirst] sampleSecond (List.forall_mem_cons.mpr ⟨sampleFirst_carries _,
        List.forall_mem_singleton.mpr (sampleSecond_carries _)⟩)).2 hfirst hboth
    rwa [hparse] at hmatched

end XtpRs.Sniff
