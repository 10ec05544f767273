import XtpRs.Sniff.Udp
import XtpRs.Udp.Session

/-!
# Pending UDP sniffs

The data of `src/udp/pending.rs`: the replay buffer, the pending entry of a flow, and the two
decisions about a payload, `handle_pending_udp_sniff` for a flow with a pending entry and
`handle_new_udp_sniff` for one without. Both are pure up to the calls that forward payloads, so a
decision is the list of payloads to forward or the entry to store; the tasks that carry it out
are in `XtpRs.Udp.Handler`.

A payload carries the number of its arrival, so that equal payloads can be told apart.

## Main definitions

* `PendingReplayBuffer`, `PendingUdpSniff`.
* `handlePendingUdpSniff`, `handleNewUdpSniff`, `handleUdpClientPayload`.

## Main results

* `handlePendingUdpSniff_datagrams`, `handleUdpClientPayload_datagrams`: a decision forwards or
  stores the cached payloads followed by the new one, each once and in order.
-/

namespace XtpRs.Udp

open Sniff

/-- A client payload with the number of its arrival. -/
structure Datagram where
  id : ℕ
  payload : Bytes
  deriving DecidableEq, Repr

/-- `QuicSniffMode`. -/
inductive QuicSniffMode
  | none
  | bestEffort
  | full
  deriving DecidableEq, Repr

def udpSniffNoClueLimit : ℕ := 2
def udpSniffMaxCachedDatagrams : ℕ := 8
def udpSniffMaxCachedBytes : ℕ := 64 * 1024
def udpSniffMaxPendingSessions : ℕ := 4096

/-- `PendingReplayBuffer`. -/
structure PendingReplayBuffer where
  datagrams : List Datagram
  cachedBytes : ℕ
  deriving DecidableEq, Repr

namespace PendingReplayBuffer

/-- `PendingReplayBuffer::new`. -/
def new (first : Datagram) : PendingReplayBuffer where
  datagrams := [first]
  cachedBytes := first.payload.length

/-- `push_datagram`: `none` when the buffer is full. -/
def pushDatagram (b : PendingReplayBuffer) (d : Datagram) : Option PendingReplayBuffer :=
  let nextBytes := b.cachedBytes + d.payload.length
  if udpSniffMaxCachedDatagrams ≤ b.datagrams.length ∨ udpSniffMaxCachedBytes < nextBytes then
    Option.none
  else
    some { datagrams := b.datagrams ++ [d], cachedBytes := nextBytes }

theorem datagrams_of_pushDatagram {b b' : PendingReplayBuffer} {d : Datagram}
    (h : b.pushDatagram d = some b') : b'.datagrams = b.datagrams ++ [d] := by
  simp only [pushDatagram] at h
  split_ifs at h
  rw [← Option.some.inj h]

end PendingReplayBuffer

/-- `PendingUdpSniff`; `deadline` is in milliseconds. -/
structure PendingUdpSniff (S : Type) where
  deadline : ℕ
  noClueAttempts : ℕ
  spec : UdpSessionSpec
  sniffer : S
  replay : PendingReplayBuffer

namespace PendingUdpSniff

variable {S : Type}

/-- `PendingUdpSniff::new`. -/
def new (spec : UdpSessionSpec) (sniffer : S) (first : Datagram) (now pendingTimeout : ℕ) :
    PendingUdpSniff S where
  deadline := now + pendingTimeout
  noClueAttempts := 0
  spec
  sniffer
  replay := .new first

/-- `expired`. -/
def expired (p : PendingUdpSniff S) (now : ℕ) : Bool := p.deadline ≤ now

/-- `record_no_clue`, with whether the limit is reached. -/
def recordNoClue (p : PendingUdpSniff S) : Bool × PendingUdpSniff S :=
  let attempts := p.noClueAttempts + 1
  (udpSniffNoClueLimit ≤ attempts, { p with noClueAttempts := attempts })

/-- The calls of `forward_udp_payload` made by `flush_pending_udp_sniff`, in order. -/
def flush (p : PendingUdpSniff S) : List (UdpSessionSpec × Datagram) :=
  p.replay.datagrams.map fun d => (p.spec, d)

end PendingUdpSniff

/-- What is done with a payload: calls of `forward_udp_payload` in order, or an entry stored in
the pending map. -/
inductive SniffDecision (S : Type)
  | forward (calls : List (UdpSessionSpec × Datagram))
  | store (pending : PendingUdpSniff S)

/-- The payloads of a decision. -/
def SniffDecision.datagrams {S : Type} : SniffDecision S → List Datagram
  | forward calls => calls.map Prod.snd
  | store p => p.replay.datagrams

section Handlers

variable {S : Type} (sniffers : UdpSniffers S)

/-- `handle_pending_udp_sniff` with the entry it has removed from the map. -/
def handlePendingUdpSniff (p : PendingUdpSniff S) (spec : UdpSessionSpec) (d : Datagram)
    (now : ℕ) : SniffDecision S :=
  if p.expired now then
    .forward (p.flush ++ [(spec, d)])
  else
    match p.replay.pushDatagram d with
    | none => .forward (p.flush ++ [(spec, d)])
    | some replay =>
      let fed := sniffers.feed p.sniffer d.payload
      let p' := { p with replay, sniffer := fed.2 }
      match fed.1 with
      | .matched _ host => .forward { p' with spec.sniffedHost := some host }.flush
      | .needMore _ => .store p'
      | .notMatched =>
        if p'.recordNoClue.1 then .forward p'.recordNoClue.2.flush else .store p'.recordNoClue.2
      | .failed _ _ => .forward p'.flush

/-- Whether the payload is put into a replay buffer on the way to the decision. -/
def storesDatagram (pending : Option (PendingUdpSniff S)) (d : Datagram) (now : ℕ) :
    SniffDecision S → Bool
  | .store _ => true
  | .forward _ =>
    match pending with
    | some p => !p.expired now && (p.replay.pushDatagram d).isSome
    | none => false

/-- The loop of `handle_new_udp_sniff` over the sniffers; `none` when it returns `false`. -/
def trySniffers (mode : QuicSniffMode) (pendingTimeout : ℕ) (spec : UdpSessionSpec)
    (d : Datagram) (now : ℕ) : List S → Option (SniffDecision S)
  | [] => none
  | s :: rest =>
    let fed := sniffers.feed s d.payload
    match fed.1 with
    | .matched _ host => some (.forward [({ spec with sniffedHost := some host }, d)])
    | .needMore _ =>
      match mode with
      | .full => some (.store (.new spec fed.2 d now pendingTimeout))
      | .bestEffort | .none => some (.forward [(spec, d)])
    | .notMatched => trySniffers mode pendingTimeout spec d now rest
    | .failed _ _ => trySniffers mode pendingTimeout spec d now rest

/-- `handle_new_udp_sniff`; `direct` is the answer of `should_direct` for the target address. -/
def handleNewUdpSniff (mode : QuicSniffMode) (pendingTimeout : ℕ) (spec : UdpSessionSpec)
    (d : Datagram) (now : ℕ) (direct : Bool) : Option (SniffDecision S) :=
  if sniffers.newSessions.isEmpty then
    none
  else if spec.routing = .auto ∧ direct then
    none
  else
    trySniffers sniffers mode pendingTimeout spec d now sniffers.newSessions

/-- The part of `handle_udp_client_payload` after no `Ready` session was found; `pending` is the
entry removed from the map. -/
def handleUdpClientPayload (mode : QuicSniffMode) (pendingTimeout : ℕ)
    (pending : Option (PendingUdpSniff S)) (spec : UdpSessionSpec) (d : Datagram) (now : ℕ)
    (direct : Bool) : SniffDecision S :=
  match pending with
  | some p => handlePendingUdpSniff sniffers p spec d now
  | none =>
    (handleNewUdpSniff sniffers mode pendingTimeout spec d now direct).getD
      (.forward [(spec, d)])

/-! ### Each payload once and in order -/

variable {sniffers}

theorem PendingUdpSniff.map_snd_flush (p : PendingUdpSniff S) :
    p.flush.map Prod.snd = p.replay.datagrams := by
  simp [flush, Function.comp_def]

/-- A payload of a flow with a pending entry: the cached payloads and then the new one. -/
theorem handlePendingUdpSniff_datagrams (p : PendingUdpSniff S) (spec : UdpSessionSpec)
    (d : Datagram) (now : ℕ) :
    (handlePendingUdpSniff sniffers p spec d now).datagrams = p.replay.datagrams ++ [d] := by
  have hflush : (p.flush ++ [(spec, d)]).map Prod.snd = p.replay.datagrams ++ [d] := by
    rw [List.map_append, p.map_snd_flush]
    rfl
  unfold handlePendingUdpSniff
  split_ifs with hexpired
  · exact hflush
  split
  · exact hflush
  · rename_i replay hpush
    have hreplay := PendingReplayBuffer.datagrams_of_pushDatagram hpush
    cases houtcome : (sniffers.feed p.sniffer d.payload).1 with
    | matched protocol host =>
      simp only [houtcome]
      exact (PendingUdpSniff.map_snd_flush _).trans hreplay
    | needMore protocol =>
      simp only [houtcome]
      exact hreplay
    | notMatched =>
      simp only [houtcome]
      split_ifs
      · exact (PendingUdpSniff.map_snd_flush _).trans hreplay
      · exact hreplay
    | failed protocol error =>
      simp only [houtcome]
      exact (PendingUdpSniff.map_snd_flush _).trans hreplay

theorem trySniffers_datagrams {mode : QuicSniffMode} {pendingTimeout : ℕ} {spec : UdpSessionSpec}
    {d : Datagram} {now : ℕ} {decision : SniffDecision S} : {l : List S} →
    trySniffers sniffers mode pendingTimeout spec d now l = some decision →
    decision.datagrams = [d]
  | [], h => by cases h
  | s :: rest, h => by
      cases houtcome : (sniffers.feed s d.payload).1 with
      | matched protocol host =>
        simp only [trySniffers, houtcome] at h
        cases h
        rfl
      | needMore protocol =>
        simp only [trySniffers, houtcome] at h
        cases mode <;> cases h <;> rfl
      | notMatched | failed protocol error =>
        simp only [trySniffers, houtcome] at h
        exact trySniffers_datagrams h

/-- **Each payload once and in order.** Whatever the sniffers answer, the cached payloads and then
the new one are forwarded, or stored. -/
theorem handleUdpClientPayload_datagrams (mode : QuicSniffMode) (pendingTimeout : ℕ)
    (pending : Option (PendingUdpSniff S)) (spec : UdpSessionSpec) (d : Datagram) (now : ℕ)
    (direct : Bool) :
    (handleUdpClientPayload sniffers mode pendingTimeout pending spec d now direct).datagrams =
      (pending.map fun p => p.replay.datagrams).getD [] ++ [d] := by
  cases pending with
  | some p => exact handlePendingUdpSniff_datagrams p spec d now
  | none =>
    simp only [handleUdpClientPayload, Option.map_none, Option.getD_none, List.nil_append]
    cases hnew : handleNewUdpSniff sniffers mode pendingTimeout spec d now direct with
    | none => rfl
    | some decision =>
      unfold handleNewUdpSniff at hnew
      split_ifs at hnew
      exact trySniffers_datagrams hnew

/-! ### The specifications of a decision -/

/-- Every specification of the decision satisfies `Q`. -/
def SniffDecision.ForallSpec (Q : UdpSessionSpec → Prop) : SniffDecision S → Prop
  | forward calls => ∀ c ∈ calls, Q c.1
  | store p => Q p.spec

/-- The host found by the sniffers of the list, tried in order until one matches or needs more. -/
def firstMatch (sniffers : UdpSniffers S) (d : Datagram) : List S → Option Str
  | [] => none
  | s :: rest =>
    match (sniffers.feed s d.payload).1 with
    | .matched _ host => some host
    | .needMore _ => none
    | .notMatched => firstMatch sniffers d rest
    | .failed _ _ => firstMatch sniffers d rest

/-- A sniffer asked about the payload answers `Matched` with the host: the one of the pending
entry, which is asked when the entry is not expired and has room, or, without an entry, the
sniffers of the list. -/
def SniffMatch (sniffers : UdpSniffers S) (pending : Option (PendingUdpSniff S)) (d : Datagram)
    (now : ℕ) (host : Str) : Prop :=
  match pending with
  | none => firstMatch sniffers d sniffers.newSessions = some host
  | some p => p.expired now = false ∧ (p.replay.pushDatagram d).isSome = true ∧
      ∃ protocol, (sniffers.feed p.sniffer d.payload).1 = .matched protocol host

theorem PendingUdpSniff.forall_flush {Q : UdpSessionSpec → Prop} {p : PendingUdpSniff S}
    (h : Q p.spec) : ∀ c ∈ p.flush, Q c.1 := by
  intro c hc
  obtain ⟨d, -, rfl⟩ := List.mem_map.mp hc
  exact h

theorem handlePendingUdpSniff_forallSpec {Q : UdpSessionSpec → Prop} {p : PendingUdpSniff S}
    {spec : UdpSessionSpec} {d : Datagram} {now : ℕ} (hspec : Q spec) (hp : Q p.spec)
    (hmatch : ∀ host, SniffMatch sniffers (some p) d now host →
      Q { p.spec with sniffedHost := some host }) :
    (handlePendingUdpSniff sniffers p spec d now).ForallSpec Q := by
  have hboth : ∀ c ∈ p.flush ++ [(spec, d)], Q c.1 := by
    intro c hc
    rcases List.mem_append.mp hc with hc | hc
    · exact PendingUdpSniff.forall_flush hp c hc
    · rw [List.mem_singleton.mp hc]
      exact hspec
  unfold handlePendingUdpSniff
  split_ifs with hexpired
  · exact hboth
  split
  · exact hboth
  · rename_i replay hpush
    cases houtcome : (sniffers.feed p.sniffer d.payload).1 with
    | matched protocol host =>
      simp only [houtcome]
      have hasked : SniffMatch sniffers (some p) d now host :=
        ⟨by simpa using hexpired, by simp [hpush], protocol, houtcome⟩
      exact PendingUdpSniff.forall_flush (hmatch host hasked)
    | needMore protocol =>
      simp only [houtcome]
      exact hp
    | notMatched =>
      simp only [houtcome]
      split_ifs
      · exact PendingUdpSniff.forall_flush hp
      · exact hp
    | failed protocol error =>
      simp only [houtcome]
      exact PendingUdpSniff.forall_flush hp

theorem trySniffers_forallSpec {Q : UdpSessionSpec → Prop} {mode : QuicSniffMode}
    {pendingTimeout : ℕ} {spec : UdpSessionSpec} {d : Datagram} {now : ℕ}
    {decision : SniffDecision S} (hspec : Q spec) : {l : List S} →
    (∀ host, firstMatch sniffers d l = some host → Q { spec with sniffedHost := some host }) →
    trySniffers sniffers mode pendingTimeout spec d now l = some decision →
    decision.ForallSpec Q
  | [], _, h => by cases h
  | s :: rest, hmatch, h => by
      cases houtcome : (sniffers.feed s d.payload).1 with
      | matched protocol host =>
        simp only [trySniffers, houtcome] at h
        cases h
        intro c hc
        rw [List.mem_singleton.mp hc]
        exact hmatch host (by simp [firstMatch, houtcome])
      | needMore protocol =>
        simp only [trySniffers, houtcome] at h
        have hsingle : ∀ c ∈ [(spec, d)], Q c.1 := by
          intro c hc
          rw [List.mem_singleton.mp hc]
          exact hspec
        cases mode with
        | full =>
          cases h
          exact hspec
        | bestEffort | none =>
          cases h
          exact hsingle
      | notMatched | failed protocol error =>
        simp only [trySniffers, houtcome] at h
        exact trySniffers_forallSpec hspec (by simpa [firstMatch, houtcome] using hmatch) h

/-- The specifications of a decision are the task's and the entry's, with a host only where some
sniffer has matched. -/
theorem handleUdpClientPayload_forallSpec {Q : UdpSessionSpec → Prop} {mode : QuicSniffMode}
    {pendingTimeout : ℕ} {pending : Option (PendingUdpSniff S)} {spec : UdpSessionSpec}
    {d : Datagram} {now : ℕ} {direct : Bool} (hspec : Q spec)
    (hpending : ∀ p, pending = some p → Q p.spec)
    (hmatch : ∀ host, SniffMatch sniffers pending d now host →
      ∀ spec', Q spec' → Q { spec' with sniffedHost := some host }) :
    (handleUdpClientPayload sniffers mode pendingTimeout pending spec d now direct
      ).ForallSpec Q := by
  cases pending with
  | some p =>
    exact handlePendingUdpSniff_forallSpec hspec (hpending p rfl)
      fun host hhost => hmatch host hhost _ (hpending p rfl)
  | none =>
    simp only [handleUdpClientPayload]
    cases hnew : handleNewUdpSniff sniffers mode pendingTimeout spec d now direct with
    | none =>
      intro c hc
      rw [List.mem_singleton.mp hc]
      exact hspec
    | some decision =>
      unfold handleNewUdpSniff at hnew
      split_ifs at hnew
      exact trySniffers_forallSpec hspec (fun host hhost => hmatch host hhost spec hspec) hnew

end Handlers

end XtpRs.Udp
