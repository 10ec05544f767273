import XtpRs.Sniff.Quic.Reassembly
import XtpRs.Sniff.Quic.Varint

/-!
# Frames of an Initial packet

`quic_parse_initial_frames` of `src/sniff/quic.rs` walks over the decrypted payload of an Initial
packet: CRYPTO frames are written to the reassembly buffer, PADDING, PING, ACK and CONNECTION_CLOSE
frames are skipped, any other frame is an error. The frames of a payload are also given as a data
type with its encoding, in which every number may have any of its encodings.

## Main definitions

* `quicParseInitialFrames`: the code.
* `Frame`, `Frame.encode`: the frames allowed in the payloads considered.

## Main results

* `quicParseInitialFrames_encode`: parsing encoded frames stores the data of the CRYPTO frames.
-/

namespace XtpRs.Sniff

open Lib

/-! ### The code -/

/-- The loop over the ranges of an ACK frame. -/
def skipAckRanges (frames : Bytes) : ℕ → ℕ → Except UdpSniffError ℕ
  | 0, off => .ok off
  | count + 1, off => do
    let (_, off) ← quicReadVarint frames off
    let (_, off) ← quicReadVarint frames off
    skipAckRanges frames count off

/-- `quic_skip_ack_frame`: the offset behind the frame. -/
def quicSkipAckFrame (frameType : ℕ) (frames : Bytes) (off : ℕ) : Except UdpSniffError ℕ := do
  let (_, off) ← quicReadVarint frames off
  let (_, off) ← quicReadVarint frames off
  let (ackRangeCount, off) ← quicReadVarint frames off
  let (_, off) ← quicReadVarint frames off
  let off ← skipAckRanges frames ackRangeCount off
  if frameType = 0x03 then do
    let (_, off) ← quicReadVarint frames off
    let (_, off) ← quicReadVarint frames off
    let (_, off) ← quicReadVarint frames off
    .ok off
  else .ok off

/-- `quic_skip_connection_close_frame`: the offset behind the frame. -/
def quicSkipConnectionCloseFrame (target : Target) (frames : Bytes) (off : ℕ) :
    Except UdpSniffError ℕ := do
  let (_, off) ← quicReadVarint frames off
  let (_, off) ← quicReadVarint frames off
  let (reasonLen, off) ← quicReadVarint frames off
  let reasonLen ← target.usizeTryFrom reasonLen
  let stop ← target.checkedAdd off reasonLen
  if frames.length < stop then .error .insufficientPrefix else .ok stop

/-- The fields of a CRYPTO frame: its offset, its data, and the offset behind the frame. -/
def quicReadCryptoFrame (target : Target) (frames : Bytes) (off : ℕ) :
    Except UdpSniffError (ℕ × Bytes × ℕ) := do
  let (cryptoOffset, off) ← quicReadVarint frames off
  let cryptoOffset ← target.usizeTryFrom cryptoOffset
  let (cryptoLen, off) ← quicReadVarint frames off
  let cryptoLen ← target.usizeTryFrom cryptoLen
  let cryptoEnd ← target.checkedAdd off cryptoLen
  if frames.length < cryptoEnd then .error .insufficientPrefix
  else .ok (cryptoOffset, slice frames off cryptoEnd, cryptoEnd)

/-- The loop of `quic_parse_initial_frames`. Each round reads at least the type of a frame, so the
length of the payload bounds the number of rounds. -/
def framesLoop (target : Target) (frames : Bytes) :
    ℕ → ℕ → QuicCryptoReassembly → Except UdpSniffError Unit × QuicCryptoReassembly
  | 0, _, crypto => (.ok (), crypto)
  | fuel + 1, off, crypto =>
    if frames.length ≤ off then (.ok (), crypto)
    else
      match quicReadVarint frames off with
      | .error e => (.error e, crypto)
      | .ok (frameType, off) =>
        if frameType = 0x00 ∨ frameType = 0x01 then framesLoop target frames fuel off crypto
        else if frameType = 0x02 ∨ frameType = 0x03 then
          match quicSkipAckFrame frameType frames off with
          | .error e => (.error e, crypto)
          | .ok off => framesLoop target frames fuel off crypto
        else if frameType = 0x06 then
          match quicReadCryptoFrame target frames off with
          | .error e => (.error e, crypto)
          | .ok (cryptoOffset, data, off) =>
            match crypto.write target cryptoOffset data with
            | (.error e, crypto) => (.error e, crypto)
            | (.ok (), crypto) => framesLoop target frames fuel off crypto
        else if frameType = 0x1c then
          match quicSkipConnectionCloseFrame target frames off with
          | .error e => (.error e, crypto)
          | .ok off => framesLoop target frames fuel off crypto
        else (.error .protocolNotMatched, crypto)

/-- `quic_parse_initial_frames`, with the state it leaves. -/
def quicParseInitialFrames (target : Target) (frames : Bytes) (crypto : QuicCryptoReassembly) :
    Except UdpSniffError Unit × QuicCryptoReassembly :=
  framesLoop target frames frames.length 0 crypto

/-! ### Frames and their encoding -/

/-- An ACK frame, with the counts of an ECN section or without it. -/
structure AckFrame where
  largestAcknowledged : Varint
  ackDelay : Varint
  ackRangeCount : Varint
  firstAckRange : Varint
  ranges : List (Varint × Varint)
  ecn : Option (Varint × Varint × Varint)
  ackRangeCount_eq : ackRangeCount.value = ranges.length

/-- A CRYPTO frame. -/
structure CryptoFrame where
  offset : Varint
  length : Varint
  data : Bytes
  length_eq : length.value = data.length

/-- A CONNECTION_CLOSE frame of type `0x1c`. -/
structure ConnectionCloseFrame where
  errorCode : Varint
  frameType : Varint
  reasonLen : Varint
  reason : Bytes
  reasonLen_eq : reasonLen.value = reason.length

/-- The frames that an Initial packet may carry. -/
inductive Frame
  | padding
  | ping
  | ack (frame : AckFrame)
  | crypto (frame : CryptoFrame)
  | connectionClose (frame : ConnectionCloseFrame)

/-- The ranges of an ACK frame. -/
def encodeRanges (ranges : List (Varint × Varint)) : Bytes :=
  ranges.flatMap fun r => r.1.encode ++ r.2.encode

/-- The ECN section of an ACK frame. -/
def encodeEcn : Option (Varint × Varint × Varint) → Bytes
  | none => []
  | some (ect0, ect1, ce) => ect0.encode ++ (ect1.encode ++ ce.encode)

/-- An ACK frame behind its type. -/
def AckFrame.encode (f : AckFrame) : Bytes :=
  f.largestAcknowledged.encode ++ (f.ackDelay.encode ++ (f.ackRangeCount.encode ++
    (f.firstAckRange.encode ++ (encodeRanges f.ranges ++ encodeEcn f.ecn))))

/-- A CRYPTO frame behind its type. -/
def CryptoFrame.encode (f : CryptoFrame) : Bytes :=
  f.offset.encode ++ (f.length.encode ++ f.data)

/-- A CONNECTION_CLOSE frame behind its type. -/
def ConnectionCloseFrame.encode (f : ConnectionCloseFrame) : Bytes :=
  f.errorCode.encode ++ (f.frameType.encode ++ (f.reasonLen.encode ++ f.reason))

namespace Frame

/-- The encoding of a frame; the type has its shortest encoding. -/
def encode : Frame → Bytes
  | padding => [0x00]
  | ping => [0x01]
  | ack f => (if f.ecn.isSome then 0x03 else 0x02) :: f.encode
  | crypto f => 0x06 :: f.encode
  | connectionClose f => 0x1c :: f.encode

/-- What a frame adds to the reassembly buffer. -/
def apply (c : QuicCryptoReassembly) : Frame → QuicCryptoReassembly
  | crypto f => c.store f.offset.value f.data
  | _ => c

/-- The data of a CRYPTO frame lies within the capacity. -/
def Fits : Frame → Prop
  | crypto f => f.offset.value + f.data.length ≤ quicCryptoReassemblyCap
  | _ => True

end Frame

/-- The payload of a packet. -/
def encodeFrames (frames : List Frame) : Bytes := frames.flatMap Frame.encode

/-! ### Parsing inverts encoding -/

variable {target : Target} {frames rest : Bytes} {off : ℕ}

theorem skipAckRanges_encode {ranges : List (Varint × Varint)}
    (h : Remaining frames off (encodeRanges ranges ++ rest)) :
    skipAckRanges frames ranges.length off = .ok (off + (encodeRanges ranges).length) := by
  induction ranges generalizing off with
  | nil => rfl
  | cons r ranges ih =>
    have hcons : encodeRanges (r :: ranges) =
        r.1.encode ++ (r.2.encode ++ encodeRanges ranges) := by
      rw [encodeRanges, List.flatMap_cons, List.append_assoc]
      rfl
    rw [hcons, List.append_assoc, List.append_assoc] at h
    have hlength := h.advance
    have hranges := hlength.advance
    simp only [List.length_cons, skipAckRanges, quicReadVarint_encode _ h,
      quicReadVarint_encode _ hlength, bind, Except.bind]
    rw [ih hranges, hcons]
    simp only [List.length_append, Nat.add_assoc]

theorem quicSkipAckFrame_encode {f : AckFrame} (h : Remaining frames off (f.encode ++ rest)) :
    quicSkipAckFrame (if f.ecn.isSome then 0x03 else 0x02) frames off =
      .ok (off + f.encode.length) := by
  rw [AckFrame.encode] at h
  simp only [List.append_assoc] at h
  have hdelay := h.advance
  have hcount := hdelay.advance
  have hfirst := hcount.advance
  have hranges := hfirst.advance
  have hecn := hranges.advance
  simp only [quicSkipAckFrame, quicReadVarint_encode _ h, quicReadVarint_encode _ hdelay,
    quicReadVarint_encode _ hcount, quicReadVarint_encode _ hfirst, bind, Except.bind,
    f.ackRangeCount_eq, skipAckRanges_encode hranges, AckFrame.encode, List.length_append]
  cases hsome : f.ecn with
  | none => simp [encodeEcn, Nat.add_assoc]
  | some counts =>
    obtain ⟨ect0, ect1, ce⟩ := counts
    rw [hsome, encodeEcn] at hecn
    simp only [List.append_assoc] at hecn
    have hect1 := hecn.advance
    have hce := hect1.advance
    simp only [Option.isSome_some, if_true, quicReadVarint_encode _ hecn,
      quicReadVarint_encode _ hect1, quicReadVarint_encode _ hce]
    simp only [encodeEcn, List.length_append, Nat.add_assoc]

theorem quicSkipConnectionCloseFrame_encode {f : ConnectionCloseFrame}
    (hframes : frames.length < 2 ^ 32) (h : Remaining frames off (f.encode ++ rest)) :
    quicSkipConnectionCloseFrame target frames off = .ok (off + f.encode.length) := by
  have hlength := h.length_eq
  rw [ConnectionCloseFrame.encode] at h hlength
  simp only [List.append_assoc, List.length_append] at h hlength
  have htype := h.advance
  have hreasonLen := htype.advance
  simp only [quicSkipConnectionCloseFrame, quicReadVarint_encode _ h,
    quicReadVarint_encode _ htype, quicReadVarint_encode _ hreasonLen, bind, Except.bind,
    f.reasonLen_eq, Target.usizeTryFrom_of_lt (show f.reason.length < 2 ^ 32 by omega)]
  rw [Target.checkedAdd_of_lt (by omega)]
  dsimp only
  rw [if_neg (by omega)]
  simp [ConnectionCloseFrame.encode, Nat.add_assoc]

theorem quicReadCryptoFrame_encode {f : CryptoFrame} (hframes : frames.length < 2 ^ 32)
    (hoffset : f.offset.value < 2 ^ 32) (h : Remaining frames off (f.encode ++ rest)) :
    quicReadCryptoFrame target frames off =
      .ok (f.offset.value, f.data, off + f.encode.length) := by
  have hlength := h.length_eq
  rw [CryptoFrame.encode] at h hlength
  simp only [List.append_assoc, List.length_append] at h hlength
  have hlen := h.advance
  have hdata := hlen.advance
  simp only [quicReadCryptoFrame, quicReadVarint_encode _ h, quicReadVarint_encode _ hlen, bind,
    Except.bind, Target.usizeTryFrom_of_lt hoffset, f.length_eq,
    Target.usizeTryFrom_of_lt (show f.data.length < 2 ^ 32 by omega)]
  rw [Target.checkedAdd_of_lt (by omega)]
  dsimp only
  rw [if_neg (by omega), hdata.slice_self]
  simp [CryptoFrame.encode, Nat.add_assoc]

theorem Frame.length_encode_pos (f : Frame) : 0 < f.encode.length := by
  cases f <;> simp [Frame.encode]

/-- One round of the loop reads one frame. -/
theorem framesLoop_succ {f : Frame} {fuel : ℕ} {crypto : QuicCryptoReassembly}
    (hframes : frames.length < 2 ^ 32) (hfits : f.Fits)
    (h : Remaining frames off (f.encode ++ rest)) :
    framesLoop target frames (fuel + 1) off crypto =
      framesLoop target frames fuel (off + f.encode.length) (f.apply crypto) := by
  have hlt : ¬frames.length ≤ off := by
    have hlength := h.length_eq
    have hpos := f.length_encode_pos
    rw [List.length_append] at hlength
    omega
  rw [framesLoop, if_neg hlt]
  cases f with
  | padding | ping =>
    rw [quicReadVarint_byte (by decide) h]
    rfl
  | ack f =>
    have hread := quicReadVarint_byte (by split_ifs <;> decide) h
    have htype : (if f.ecn.isSome then 0x03 else 0x02 : UInt8).toNat =
        if f.ecn.isSome then 0x03 else 0x02 := by
      split_ifs <;> rfl
    have hskip := quicSkipAckFrame_encode h.advance_cons
    have hoff : off + 1 + f.encode.length = off + (Frame.ack f).encode.length := by
      rw [Frame.encode, List.length_cons]
      omega
    rw [hread]
    dsimp only
    rw [htype, if_neg (by split_ifs <;> decide), if_pos (by split_ifs <;> decide), hskip, ← hoff]
    rfl
  | crypto f =>
    have hcap : quicCryptoReassemblyCap < 2 ^ 32 := by decide
    have hfits' : f.offset.value + f.data.length ≤ quicCryptoReassemblyCap := hfits
    have hread := quicReadVarint_byte (by decide) h
    have hcrypto : quicReadCryptoFrame target frames (off + 1) =
        .ok (f.offset.value, f.data, off + 1 + f.encode.length) :=
      quicReadCryptoFrame_encode hframes (by omega) h.advance_cons
    have hoff : off + 1 + f.encode.length = off + (Frame.crypto f).encode.length := by
      rw [Frame.encode, List.length_cons]
      omega
    rw [hread]
    dsimp only
    rw [if_neg (by decide), if_neg (by decide), if_pos (by decide), hcrypto]
    dsimp only
    rw [QuicCryptoReassembly.write_of_le hfits', ← hoff]
    rfl
  | connectionClose f =>
    have hread := quicReadVarint_byte (by decide) h
    have hskip : quicSkipConnectionCloseFrame target frames (off + 1) =
        .ok (off + 1 + f.encode.length) :=
      quicSkipConnectionCloseFrame_encode hframes h.advance_cons
    have hoff : off + 1 + f.encode.length = off + (Frame.connectionClose f).encode.length := by
      rw [Frame.encode, List.length_cons]
      omega
    rw [hread]
    dsimp only
    rw [if_neg (by decide), if_neg (by decide), if_neg (by decide), if_pos (by decide), hskip,
      ← hoff]
    rfl

/-- The loop reads the frames one after the other. -/
theorem framesLoop_encode {list : List Frame} {fuel : ℕ} {crypto : QuicCryptoReassembly}
    (hframes : frames.length < 2 ^ 32) (hfits : ∀ f ∈ list, f.Fits) (hfuel : list.length ≤ fuel)
    (h : Remaining frames off (encodeFrames list)) :
    framesLoop target frames fuel off crypto = (.ok (), list.foldl Frame.apply crypto) := by
  induction list generalizing fuel off crypto with
  | nil =>
    have hend := h.length_eq
    cases fuel with
    | zero => rfl
    | succ fuel =>
      rw [framesLoop, if_pos (by simpa [encodeFrames] using hend.ge)]
      rfl
  | cons f list ih =>
    obtain ⟨fuel, rfl⟩ : ∃ n, fuel = n + 1 := ⟨fuel - 1, by rw [List.length_cons] at hfuel; omega⟩
    rw [List.length_cons] at hfuel
    rw [encodeFrames, List.flatMap_cons] at h
    rw [framesLoop_succ hframes (hfits f List.mem_cons_self) h, List.foldl_cons]
    exact ih (fun f' hf' => hfits f' (List.mem_cons_of_mem f hf')) (by omega) h.advance

theorem length_le_length_encodeFrames (list : List Frame) :
    list.length ≤ (encodeFrames list).length := by
  induction list with
  | nil => rfl
  | cons f list ih =>
    have hpos := f.length_encode_pos
    rw [encodeFrames, List.flatMap_cons, List.length_append, List.length_cons]
    rw [encodeFrames] at ih
    omega

/-- **Parsing inverts encoding.** The payload made of the encodings of frames is parsed without
error, and the data of its CRYPTO frames is stored, in order. -/
theorem quicParseInitialFrames_encode {list : List Frame} {crypto : QuicCryptoReassembly}
    (hlength : (encodeFrames list).length < 2 ^ 32) (hfits : ∀ f ∈ list, f.Fits) :
    quicParseInitialFrames target (encodeFrames list) crypto =
      (.ok (), list.foldl Frame.apply crypto) :=
  framesLoop_encode hlength hfits (length_le_length_encodeFrames list) (.start _)

end XtpRs.Sniff
