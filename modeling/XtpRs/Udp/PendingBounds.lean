import XtpRs.Udp.Handler

/-!
# The memory of the pending map

Anyone who can send packets can make `handle_udp_client_payload` insert pending entries. Three
constants bound what is kept: the capacity of the map, which
`enforce_pending_udp_sniff_capacity` restores after every insertion, and the number of payloads and
of bytes of an entry, which `push_datagram` checks. The first payload of an entry passes no check;
it is as long as the receive buffer at most.

Here the calls are made one at a time. A call comes with what it reads beside the map: the runtime,
the clock, the routing decision and the order in which the map is iterated.

## Main definitions

* `RecvDatagram`: a payload with the length of the receive buffer as its bound.
* `evictOldest`, `enforcePendingUdpSniffCapacity`: an iteration of the capacity loop, and the loop.
* `PendingCall`, `pendingStep`: the calls on the pending map.

## Main results

* `evictOldest_eq_some`: an iteration removes an entry with the smallest deadline.
* `exists_enforcePendingUdpSniffCapacity`: the capacity loop ends, within the capacity.
* `pending_bounded`: every sequence of calls leaves a map within its bounds.
-/

namespace XtpRs.Udp

open Lib Sniff

def udpRecvBufSize : ℕ := 65536

/-- A payload as it is read into the receive buffer. -/
structure RecvDatagram extends Datagram where
  length_le : payload.length ≤ udpRecvBufSize

/-- `PendingSniffMap`. -/
abbrev PendingSniffMap (S : Type) := HashMap UdpSessionKey (PendingUdpSniff S)

/-- The order in which an iteration meets the entries of a map. -/
structure IterationOrder (S : Type) where
  entries : PendingSniffMap S → List (UdpSessionKey × PendingUdpSniff S)
  perm (m : PendingSniffMap S) : (entries m).Perm m.toList

variable {S : Type}

/-! ### The entries -/

/-- A replay buffer within its bounds. -/
structure PendingReplayBuffer.Bounded (b : PendingReplayBuffer) : Prop where
  one_le : 1 ≤ b.datagrams.length
  length_le : b.datagrams.length ≤ udpSniffMaxCachedDatagrams
  cachedBytes_eq : b.cachedBytes = (b.datagrams.map fun d => d.payload.length).sum
  cachedBytes_le : b.cachedBytes ≤ udpSniffMaxCachedBytes

namespace PendingReplayBuffer

/-- A first payload fits because the receive buffer is no longer than `UDP_SNIFF_MAX_CACHED_BYTES`.
-/
theorem bounded_new (d : RecvDatagram) : (new d.toDatagram).Bounded where
  one_le := le_rfl
  length_le := (Nat.le_add_left 1 7 : 1 ≤ udpSniffMaxCachedDatagrams)
  cachedBytes_eq := by simp [new]
  cachedBytes_le := d.length_le

theorem Bounded.pushDatagram {b b' : PendingReplayBuffer} {d : Datagram} (h : b.Bounded)
    (hpush : b.pushDatagram d = some b') : b'.Bounded := by
  simp only [PendingReplayBuffer.pushDatagram] at hpush
  split_ifs at hpush with hfull
  obtain ⟨hcount, hbytes⟩ := not_or.mp hfull
  obtain rfl := Option.some.inj hpush
  refine ⟨?_, ?_, ?_, not_lt.mp hbytes⟩
  · simp
  · rw [List.length_append]
    exact not_le.mp hcount
  · rw [List.map_append, List.sum_append, h.cachedBytes_eq]
    simp

end PendingReplayBuffer

/-- A pending entry within its bounds. -/
structure PendingUdpSniff.Bounded (p : PendingUdpSniff S) : Prop where
  replay : p.replay.Bounded
  noClueAttempts_lt : p.noClueAttempts < udpSniffNoClueLimit

theorem PendingUdpSniff.bounded_new (spec : UdpSessionSpec) (sniffer : S) (d : RecvDatagram)
    (now pendingTimeout : ℕ) : (new spec sniffer d.toDatagram now pendingTimeout).Bounded where
  replay := PendingReplayBuffer.bounded_new d
  noClueAttempts_lt := (Nat.zero_lt_two : 0 < udpSniffNoClueLimit)

variable {sniffers : UdpSniffers S} {mode : QuicSniffMode} {pendingTimeout now : ℕ}
  {spec : UdpSessionSpec} {direct : Bool} {p p' : PendingUdpSniff S}

/-- An entry put back has taken the payload in, and has not reached the limit of
`record_no_clue`. -/
theorem PendingUdpSniff.Bounded.handlePendingUdpSniff {d : Datagram} (h : p.Bounded)
    (hstore : handlePendingUdpSniff sniffers p spec d now = .store p') : p'.Bounded := by
  unfold Udp.handlePendingUdpSniff at hstore
  split_ifs at hstore with hexpired
  cases hpush : p.replay.pushDatagram d with
  | none =>
    simp only [hpush] at hstore
    cases hstore
  | some replay =>
    have hreplay : replay.Bounded := h.replay.pushDatagram hpush
    cases houtcome : (sniffers.feed p.sniffer d.payload).1 with
    | matched protocol host =>
      simp only [hpush, houtcome] at hstore
      cases hstore
    | needMore protocol =>
      simp only [hpush, houtcome] at hstore
      obtain rfl := SniffDecision.store.inj hstore
      exact ⟨hreplay, h.noClueAttempts_lt⟩
    | notMatched =>
      simp only [hpush, houtcome] at hstore
      split_ifs at hstore with hlimit
      obtain rfl := SniffDecision.store.inj hstore
      exact ⟨hreplay, by simpa [recordNoClue] using hlimit⟩
    | failed protocol error =>
      simp only [hpush, houtcome] at hstore
      cases hstore

/-- The sniffers create an entry with the one payload. -/
theorem bounded_of_trySniffers {d : RecvDatagram} : {l : List S} →
    trySniffers sniffers mode pendingTimeout spec d.toDatagram now l = some (.store p) → p.Bounded
  | [], h => by cases h
  | s :: rest, h => by
      cases houtcome : (sniffers.feed s d.payload).1 with
      | matched protocol host =>
        simp only [trySniffers, houtcome] at h
        cases h
      | needMore protocol =>
        simp only [trySniffers, houtcome] at h
        cases mode with
        | full =>
          cases h
          exact PendingUdpSniff.bounded_new _ _ d _ _
        | bestEffort | none => cases h
      | notMatched | failed protocol error =>
        simp only [trySniffers, houtcome] at h
        exact bounded_of_trySniffers h

/-- **Entries.** An entry stored for a payload is within its bounds if the one taken from the map
is. -/
theorem bounded_of_handleUdpClientPayload {d : RecvDatagram}
    {pending : Option (PendingUdpSniff S)} (h : ∀ q, pending = some q → q.Bounded)
    (hstore : handleUdpClientPayload sniffers mode pendingTimeout pending spec d.toDatagram now
      direct = .store p) : p.Bounded := by
  cases pending with
  | some q => exact (h q rfl).handlePendingUdpSniff hstore
  | none =>
    simp only [handleUdpClientPayload] at hstore
    cases hnew : handleNewUdpSniff sniffers mode pendingTimeout spec d.toDatagram now direct with
    | none =>
      rw [hnew] at hstore
      cases hstore
    | some decision =>
      rw [hnew, Option.getD_some] at hstore
      unfold handleNewUdpSniff at hnew
      split_ifs at hnew
      exact bounded_of_trySniffers (hstore ▸ hnew)

/-! ### The capacity loop -/

/-- An iteration of the loop of `enforce_pending_udp_sniff_capacity`; `none` when the loop has
ended. -/
def evictOldest (order : IterationOrder S) (m : PendingSniffMap S) : Option (PendingSniffMap S) :=
  if udpSniffMaxPendingSessions < m.size then
    ((order.entries m).argmin fun e => e.2.deadline).map fun e => m.erase e.1
  else none

/-- The loop of `enforce_pending_udp_sniff_capacity`; `none` when it has not ended after `n`
evaluations of its condition. -/
def enforceLoop (order : IterationOrder S) : ℕ → PendingSniffMap S → Option (PendingSniffMap S)
  | 0, _ => none
  | n + 1, m =>
    match evictOldest order m with
    | none => some m
    | some m' => enforceLoop order n m'

/-- `enforce_pending_udp_sniff_capacity`. -/
def enforcePendingUdpSniffCapacity (order : IterationOrder S) (m : PendingSniffMap S) :
    Option (PendingSniffMap S) :=
  enforceLoop order (m.size + 1) m

variable {order : IterationOrder S} {m m' : PendingSniffMap S}

theorem IterationOrder.mem_entries {k : UdpSessionKey} :
    (k, p) ∈ order.entries m ↔ m.lookup k = some p := by
  rw [(order.perm m).mem_iff, HashMap.mem_toList]

theorem evictOldest_eq_none (h : evictOldest order m = none) :
    m.size ≤ udpSniffMaxPendingSessions := by
  by_contra hsize
  rw [evictOldest, if_pos (not_le.mp hsize), Option.map_eq_none_iff, List.argmin_eq_none] at h
  -- a map over its capacity has an entry
  have hlength : m.size = 0 := by
    rw [← List.length_eq_zero_iff.mpr h, (order.perm m).length_eq]
    exact (List.length_map _).symm
  rw [hlength] at hsize
  exact hsize (Nat.zero_le _)

/-- **An iteration.** It removes an entry with the smallest deadline. -/
theorem evictOldest_eq_some (h : evictOldest order m = some m') :
    ∃ k p, m.lookup k = some p ∧ (∀ k' p', m.lookup k' = some p' → p.deadline ≤ p'.deadline) ∧
      m' = m.erase k := by
  unfold evictOldest at h
  split_ifs at h
  obtain ⟨⟨k, p⟩, hmin, rfl⟩ := Option.map_eq_some_iff.mp h
  refine ⟨k, p, order.mem_entries.mp (List.argmin_mem hmin), fun k' p' hp' => ?_, rfl⟩
  have hmem : (k', p') ∈ order.entries m := order.mem_entries.mpr hp'
  exact List.le_of_mem_argmin (f := fun e : UdpSessionKey × PendingUdpSniff S => e.2.deadline)
    hmem hmin

/-- The entry that the loop removes may be evicted by a task of `UdpLoop`. -/
theorem isOldest_of_evictOldest {st : UdpLoop S} (h : evictOldest order st.pending = some m') :
    ∃ k, st.isOldest k = true ∧ m' = st.pending.erase k := by
  obtain ⟨k, p, hp, hmin, rfl⟩ := evictOldest_eq_some h
  refine ⟨k, ?_, rfl⟩
  simp only [UdpLoop.isOldest, hp, List.all_eq_true, decide_eq_true_eq]
  exact fun e he => hmin e.1 e.2 ((HashMap.mem_toList st.pending).mp he)

theorem size_of_evictOldest (h : evictOldest order m = some m') : m'.size + 1 = m.size := by
  obtain ⟨k, p, hp, -, rfl⟩ := evictOldest_eq_some h
  exact HashMap.size_erase_of_isSome_lookup (by rw [hp]; rfl)

theorem lookup_of_lookup_erase {k k' : UdpSessionKey} (h : (m.erase k).lookup k' = some p) :
    m.lookup k' = some p := by
  rw [HashMap.lookup_erase_eq_ite] at h
  split_ifs at h
  exact h

theorem exists_enforceLoop : (n : ℕ) → (m : PendingSniffMap S) → m.size < n →
    ∃ m', enforceLoop order n m = some m' ∧ m'.size ≤ udpSniffMaxPendingSessions ∧
      ∀ k p, m'.lookup k = some p → m.lookup k = some p
  | 0, m, h => absurd h (Nat.not_lt_zero _)
  | n + 1, m, h => by
      cases hevict : evictOldest order m with
      | none => exact ⟨m, by simp only [enforceLoop, hevict], evictOldest_eq_none hevict, by simp⟩
      | some m₁ =>
        have hsize : m₁.size + 1 = m.size := size_of_evictOldest hevict
        obtain ⟨m', hloop, hle, hsub⟩ := exists_enforceLoop n m₁ (by omega)
        refine ⟨m', by simpa only [enforceLoop, hevict] using hloop, hle, fun k p hp => ?_⟩
        obtain ⟨k₁, p₁, -, -, rfl⟩ := evictOldest_eq_some hevict
        exact lookup_of_lookup_erase (hsub k p hp)

/-- **The capacity loop.** It ends, with entries of the map within the capacity. -/
theorem exists_enforcePendingUdpSniffCapacity (order : IterationOrder S) (m : PendingSniffMap S) :
    ∃ m', enforcePendingUdpSniffCapacity order m = some m' ∧
      m'.size ≤ udpSniffMaxPendingSessions ∧ ∀ k p, m'.lookup k = some p → m.lookup k = some p :=
  exists_enforceLoop (m.size + 1) m (Nat.lt_succ_self _)

/-! ### The calls -/

/-- A call with what it reads: whether the runtime is closed, whether it has a `Ready` session for
the key, the clock, the answer of `should_direct`, and the order of the iterations. -/
inductive PendingCall (S : Type)
  | handleUdpClientPayload (cfg : UdpLoopConfig S) (closed ready : Bool) (spec : UdpSessionSpec)
      (d : RecvDatagram) (now : ℕ) (direct : Bool) (order : IterationOrder S)
  | reapPendingUdpSniff (clock : UdpSessionKey → ℕ) (order : IterationOrder S)

/-- The keys that `reap_pending_udp_sniff` collects; `expired` reads the clock for every entry. -/
def expiredKeys (order : IterationOrder S) (clock : UdpSessionKey → ℕ) (m : PendingSniffMap S) :
    List UdpSessionKey :=
  ((order.entries m).filter fun e => e.2.expired (clock e.1)).map Prod.fst

/-- The pending map after a call. -/
def pendingStep (m : PendingSniffMap S) : PendingCall S → Option (PendingSniffMap S)
  | .handleUdpClientPayload cfg closed ready spec d now direct order =>
    if closed then
      some m
    else if ready then
      some (m.erase spec.key)
    else
      match handleUdpClientPayload cfg.sniffers cfg.quicSniffMode cfg.quicSniffPendingTimeoutMs
        (m.lookup spec.key) spec d.toDatagram now direct with
      | .forward _ => some (m.erase spec.key)
      | .store p =>
        enforcePendingUdpSniffCapacity order ((m.erase spec.key).insert spec.key p)
  | .reapPendingUdpSniff clock order =>
    let keys := expiredKeys order clock m
    enforcePendingUdpSniffCapacity order (keys.foldl (fun m k => m.erase k) m)

/-- A pending map within its bounds. -/
structure PendingSniffMap.Bounded (m : PendingSniffMap S) : Prop where
  size_le : m.size ≤ udpSniffMaxPendingSessions
  entry (k : UdpSessionKey) (p : PendingUdpSniff S) (hp : m.lookup k = some p) : p.Bounded

theorem PendingSniffMap.bounded_empty : PendingSniffMap.Bounded (∅ : PendingSniffMap S) where
  size_le := Nat.zero_le _
  entry k p hp := by cases hp

theorem PendingSniffMap.Bounded.erase (h : PendingSniffMap.Bounded m) (k : UdpSessionKey) :
    PendingSniffMap.Bounded (m.erase k) where
  size_le := (HashMap.size_erase_le m k).trans h.size_le
  entry k' p hp := h.entry k' p (lookup_of_lookup_erase hp)

/-- The capacity loop needs the bounds of the entries only. -/
theorem PendingSniffMap.exists_bounded (order : IterationOrder S)
    (h : ∀ k p, m.lookup k = some p → p.Bounded) :
    ∃ m', enforcePendingUdpSniffCapacity order m = some m' ∧ PendingSniffMap.Bounded m' := by
  obtain ⟨m', henforce, hle, hsub⟩ := exists_enforcePendingUdpSniffCapacity order m
  exact ⟨m', henforce, hle, fun k p hp => h k p (hsub k p hp)⟩

theorem lookup_of_lookup_foldl_erase {keys : List UdpSessionKey} {k : UdpSessionKey}
    (h : (keys.foldl (fun m k => m.erase k) m).lookup k = some p) : m.lookup k = some p := by
  induction keys generalizing m with
  | nil => exact h
  | cons k' keys ih => exact lookup_of_lookup_erase (ih h)

/-- **A call.** It returns, and leaves a map within its bounds. -/
theorem PendingSniffMap.Bounded.pendingStep (h : PendingSniffMap.Bounded m) (call : PendingCall S) :
    ∃ m', pendingStep m call = some m' ∧ PendingSniffMap.Bounded m' := by
  cases call with
  | handleUdpClientPayload cfg closed ready spec d now direct order =>
    simp only [Udp.pendingStep]
    split_ifs with hclosed hready
    · exact ⟨m, rfl, h⟩
    · exact ⟨_, rfl, h.erase spec.key⟩
    split
    · exact ⟨_, rfl, h.erase spec.key⟩
    · rename_i p hstore
      have hp : p.Bounded :=
        bounded_of_handleUdpClientPayload (fun q hq => h.entry spec.key q hq) hstore
      refine PendingSniffMap.exists_bounded order fun k q hq => ?_
      rw [HashMap.lookup_insert_eq_ite] at hq
      split_ifs at hq with hk
      · exact Option.some.inj hq ▸ hp
      · exact h.entry k q (lookup_of_lookup_erase hq)
  | reapPendingUdpSniff clock order =>
    exact PendingSniffMap.exists_bounded order
      fun k p hp => h.entry k p (lookup_of_lookup_foldl_erase hp)

/-- **Pending sniffs are bounded.** Every sequence of calls can be made and leaves at most 4096
entries, each of 1 to 8 payloads with at most 65536 bytes in all, which `cached_bytes` counts, and
with less than 2 recorded attempts. Whatever the map, the capacity loop ends, and each of its
iterations removes an entry with the smallest deadline. -/
theorem pending_bounded (calls : List (PendingCall S)) :
    (∃ m : PendingSniffMap S, run pendingStep ∅ calls = some m ∧ m.size ≤ 4096 ∧
      ∀ k p, m.lookup k = some p →
        1 ≤ p.replay.datagrams.length ∧ p.replay.datagrams.length ≤ 8 ∧
        p.replay.cachedBytes = (p.replay.datagrams.map fun d => d.payload.length).sum ∧
        p.replay.cachedBytes ≤ 65536 ∧ p.noClueAttempts < 2) ∧
    ∀ (order : IterationOrder S) (m : PendingSniffMap S),
      (∃ m', enforcePendingUdpSniffCapacity order m = some m') ∧
      ∀ m', evictOldest order m = some m' →
        ∃ k p, m.lookup k = some p ∧
          (∀ k' p', m.lookup k' = some p' → p.deadline ≤ p'.deadline) ∧ m' = m.erase k := by
  constructor
  · obtain ⟨m, hm, hbounded⟩ := exists_run (I := fun _ => PendingSniffMap.Bounded)
      PendingSniffMap.bounded_empty
      (fun _ m call (h : PendingSniffMap.Bounded m) => h.pendingStep call) calls
    refine ⟨m, hm, hbounded.size_le, fun k p hp => ?_⟩
    have hentry := hbounded.entry k p hp
    exact ⟨hentry.replay.one_le, hentry.replay.length_le, hentry.replay.cachedBytes_eq,
      hentry.replay.cachedBytes_le, hentry.noClueAttempts_lt⟩
  · intro order m
    obtain ⟨m', henforce, -, -⟩ := exists_enforcePendingUdpSniffCapacity order m
    exact ⟨⟨m', henforce⟩, fun m' hm' => evictOldest_eq_some hm'⟩

end XtpRs.Udp
