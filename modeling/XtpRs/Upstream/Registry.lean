import XtpRs.Lib.Run

/-!
# The throughput sample

Every proxied TCP connection is registered with its upstream as long as it lasts (`track`). A tick
of `run_score_task` of `src/upstream.rs` drops the registered connections that have ended, asks the
others for their byte counters and compares the sums with those of the tick before. A tick that can
ask no connection changes nothing else.

`Sampler` is one upstream with its connections. A connection has the exact counters that `TCP_INFO`
returns; `sampled` is what the last tick that could ask a connection has read of it, which the
source does not keep. Sums are natural numbers here; `XtpRs.Upstream.ScoreTick` shows that the sums
of 64 bits in the source agree with them as long as they fit.

## Main definitions

* `Registry.track`, `Registry.sweep`: the registry.
* `Sampler.tick`: the sample of a tick.
* `Sampler.movedBytes`: what the live connections have moved since the last tick.
* `Sampler.Unhidden`: the condition under which the sample measures that.

## Main results

* `Sampler.Inv.step`: what the registry and the remembered sums are.
* `Sampler.sum_add_gone`: the sums of a tick, and what is missing from them.
* `Sampler.deltaBytes_exact_iff`: the sample is exact if and only if the condition holds.
-/

namespace XtpRs.Upstream

open Lib

/-- A connection, by the number of its token. -/
abbrev ConnId := ℕ

/-- An entry of the registry: the weak reference to a token and the descriptor. -/
structure RegistryEntry where
  conn : ConnId
  fd : ℤ
  deriving DecidableEq, Repr

namespace Registry

/-- `Upstream::track`. -/
def track (registry : List RegistryEntry) (conn : ConnId) (fd : ℤ) : List RegistryEntry :=
  registry ++ [⟨conn, fd⟩]

/-- The `retain` of `run_score_task`: the entries whose tokens still exist. -/
def sweep (alive : ConnId → Bool) (registry : List RegistryEntry) : List RegistryEntry :=
  registry.filter fun e => alive e.conn

end Registry

/-- A connection. Its token exists while it is alive. -/
structure Conn where
  alive : Bool := true
  received : ℕ := 0
  acked : ℕ := 0
  sampled : Option (ℕ × ℕ) := none
  deriving DecidableEq, Repr

/-- The counters at the last tick; zero, as at the start, for a connection that was not in it. -/
def Conn.base (c : Conn) : ℕ × ℕ :=
  c.sampled.getD (0, 0)

/-- The bytes received since then. -/
def Conn.movedRecv (c : Conn) : ℕ :=
  c.received - c.base.1

/-- The bytes sent and acknowledged since then. -/
def Conn.movedSent (c : Conn) : ℕ :=
  c.acked - c.base.2

/-- An upstream with the connections opened through it so far. -/
structure Sampler where
  count : ℕ := 0
  conns : ConnId → Conn := fun _ => {}
  registry : List RegistryEntry := []
  lastTotalRecv : ℕ := 0
  lastTotalSent : ℕ := 0
  tcpInfoInitialized : Bool := false
  /-- `delta_bytes` of the last tick, if it has come so far. -/
  deltaBytes : Option ℕ := none

/-- What happens at an upstream. For a tick it is given which connections can be asked. -/
inductive SamplerAction
  | opened (fd : ℤ)
  | closed (conn : ConnId)
  | moved (conn : ConnId) (received acked : ℕ)
  | tick (readable : ConnId → Bool)

namespace Sampler

/-- The connections that a tick reads. -/
def seen (s : Sampler) (readable : ConnId → Bool) : List ConnId :=
  ((Registry.sweep (fun i => (s.conns i).alive) s.registry).map RegistryEntry.conn).filter readable

/-- A tick of `run_score_task`, up to `delta_bytes`. -/
def tick (s : Sampler) (readable : ConnId → Bool) : Sampler :=
  let entries := Registry.sweep (fun i => (s.conns i).alive) s.registry
  let seen := s.seen readable
  let recv := (seen.map fun i => (s.conns i).received).sum
  let sent := (seen.map fun i => (s.conns i).acked).sum
  if seen.length = 0 then { s with registry := entries, deltaBytes := none }
  else
    { s with
      registry := entries
      lastTotalRecv := recv
      lastTotalSent := sent
      tcpInfoInitialized := true
      deltaBytes :=
        if s.tcpInfoInitialized then some ((recv - s.lastTotalRecv) + (sent - s.lastTotalSent))
        else none
      conns := fun i =>
        { s.conns i with
          sampled := if i ∈ seen then some ((s.conns i).received, (s.conns i).acked) else none } }

/-- A step. Only connections that are alive move bytes or end. -/
def step (s : Sampler) : SamplerAction → Option Sampler
  | .opened fd =>
    some { s with
      count := s.count + 1
      conns := Function.update s.conns s.count {}
      registry := Registry.track s.registry s.count fd }
  | .closed i =>
    if i < s.count ∧ (s.conns i).alive then
      some { s with conns := Function.update s.conns i { s.conns i with alive := false } }
    else none
  | .moved i received acked =>
    if i < s.count ∧ (s.conns i).alive then
      some { s with conns := Function.update s.conns i { s.conns i with
        received := (s.conns i).received + received
        acked := (s.conns i).acked + acked } }
    else none
  | .tick readable => some (s.tick readable)

/-! ### What a tick should measure -/

/-- The connections that are alive. -/
def alive (s : Sampler) : Finset ConnId :=
  (Finset.range s.count).filter fun i => (s.conns i).alive

/-- The connections alive that can be asked. -/
def seenSet (s : Sampler) (readable : ConnId → Bool) : Finset ConnId :=
  s.alive.filter fun i => readable i

/-- The connections of the last tick that could ask one. -/
def sampledSet (s : Sampler) : Finset ConnId :=
  (Finset.range s.count).filter fun i => (s.conns i).sampled.isSome

/-- What the live connections have moved since the last tick, or since their start. -/
def movedBytes (s : Sampler) : ℕ :=
  ∑ i ∈ s.alive, ((s.conns i).movedRecv + (s.conns i).movedSent)

/-- No live connection that cannot be asked has moved bytes, and in each direction the connections
that are asked have moved none, or those of the last tick that are missing had moved none by
then. -/
structure Unhidden (s : Sampler) (readable : ConnId → Bool) : Prop where
  unread : ∀ i ∈ s.alive \ s.seenSet readable,
    (s.conns i).movedRecv = 0 ∧ (s.conns i).movedSent = 0
  recv : (∀ i ∈ s.seenSet readable, (s.conns i).movedRecv = 0) ∨
    ∀ i ∈ s.sampledSet \ s.seenSet readable, (s.conns i).base.1 = 0
  sent : (∀ i ∈ s.seenSet readable, (s.conns i).movedSent = 0) ∨
    ∀ i ∈ s.sampledSet \ s.seenSet readable, (s.conns i).base.2 = 0

/-! ### The invariant -/

/-- The registry has every live connection once, counters do not decrease, and the totals are the
sums of the last tick. -/
structure Inv (s : Sampler) : Prop where
  nodup : (s.registry.map RegistryEntry.conn).Nodup
  lt_count : ∀ e ∈ s.registry, e.conn < s.count
  registered : ∀ i ∈ s.alive, i ∈ s.registry.map RegistryEntry.conn
  base_le : ∀ i < s.count,
    (s.conns i).base.1 ≤ (s.conns i).received ∧ (s.conns i).base.2 ≤ (s.conns i).acked
  totalRecv : s.lastTotalRecv = ∑ i ∈ s.sampledSet, (s.conns i).base.1
  totalSent : s.lastTotalSent = ∑ i ∈ s.sampledSet, (s.conns i).base.2

variable {s t : Sampler} {readable : ConnId → Bool}

theorem mem_alive {i : ConnId} : i ∈ s.alive ↔ i < s.count ∧ (s.conns i).alive = true := by
  rw [alive, Finset.mem_filter, Finset.mem_range]

theorem mem_sampledSet {i : ConnId} :
    i ∈ s.sampledSet ↔ i < s.count ∧ (s.conns i).sampled.isSome = true := by
  rw [sampledSet, Finset.mem_filter, Finset.mem_range]

/-- The connections that a tick reads are the live ones that can be asked. -/
theorem Inv.mem_seen (h : Inv s) {i : ConnId} : i ∈ s.seen readable ↔ i ∈ s.seenSet readable := by
  rw [seen, seenSet, List.mem_filter, Finset.mem_filter, mem_alive, List.mem_map]
  refine and_congr_left fun _ => ⟨?_, fun hi => ?_⟩
  · rintro ⟨e, he, rfl⟩
    obtain ⟨he, halive⟩ := List.mem_filter.mp he
    exact ⟨h.lt_count e he, halive⟩
  · obtain ⟨e, he, rfl⟩ := List.mem_map.mp (h.registered i (mem_alive.mpr hi))
    exact ⟨e, List.mem_filter.mpr ⟨he, hi.2⟩, rfl⟩

theorem Inv.nodup_seen (h : Inv s) : (s.seen readable).Nodup :=
  (h.nodup.sublist (List.filter_sublist.map _)).filter _

theorem Inv.toFinset_seen (h : Inv s) : (s.seen readable).toFinset = s.seenSet readable :=
  Finset.ext fun _ => List.mem_toFinset.trans h.mem_seen

theorem Inv.sum_seen (h : Inv s) (f : ConnId → ℕ) :
    ((s.seen readable).map f).sum = ∑ i ∈ s.seenSet readable, f i := by
  rw [← h.toFinset_seen, List.sum_toFinset f h.nodup_seen]

/-- The connection and the sums do not depend on connections that are not opened yet. -/
theorem sum_sampledSet_congr (hcount : s.count ≤ t.count)
    (hsampled : ∀ i < s.count, (t.conns i).sampled = (s.conns i).sampled)
    (hnew : ∀ i, s.count ≤ i → i < t.count → (t.conns i).sampled = none) (f : ℕ × ℕ → ℕ) :
    ∑ i ∈ t.sampledSet, f (t.conns i).base = ∑ i ∈ s.sampledSet, f (s.conns i).base := by
  have hset : t.sampledSet = s.sampledSet := by
    ext i
    rw [mem_sampledSet, mem_sampledSet]
    constructor
    · rintro ⟨hi, hsome⟩
      by_cases hlt : i < s.count
      · exact ⟨hlt, hsampled i hlt ▸ hsome⟩
      · rw [hnew i (not_lt.mp hlt) hi] at hsome
        cases hsome
    · rintro ⟨hi, hsome⟩
      exact ⟨hi.trans_le hcount, (hsampled i hi).symm ▸ hsome⟩
  rw [hset]
  refine Finset.sum_congr rfl fun i hi => ?_
  rw [Conn.base, hsampled i (mem_sampledSet.mp hi).1, ← Conn.base]

theorem Inv.init : Inv {} where
  nodup := .nil
  lt_count := by simp
  registered := by simp [alive]
  base_le := by simp
  totalRecv := by simp [sampledSet]
  totalSent := by simp [sampledSet]

theorem Inv.opened (h : Inv s) (fd : ℤ) :
    Inv { s with
      count := s.count + 1
      conns := Function.update s.conns s.count {}
      registry := Registry.track s.registry s.count fd } := by
  have hold {i : ConnId} (hi : i < s.count) : Function.update s.conns s.count {} i = s.conns i :=
    Function.update_of_ne hi.ne _ _
  have hsum (f : ℕ × ℕ → ℕ) := sum_sampledSet_congr (s := s)
    (t := ⟨s.count + 1, Function.update s.conns s.count {}, Registry.track s.registry s.count fd,
      s.lastTotalRecv, s.lastTotalSent, s.tcpInfoInitialized, s.deltaBytes⟩) (Nat.le_succ _)
    (fun i hi => congrArg Conn.sampled (hold hi))
    (fun i hi hlt => by
      obtain rfl : i = s.count := by simp only at hlt; omega
      simp) f
  refine ⟨?_, ?_, ?_, ?_, h.totalRecv.trans (hsum Prod.fst).symm,
    h.totalSent.trans (hsum Prod.snd).symm⟩
  · rw [Registry.track, List.map_append, List.map_singleton, List.nodup_append]
    refine ⟨h.nodup, List.nodup_singleton _, fun i hi j hj => ?_⟩
    obtain ⟨e, he, rfl⟩ := List.mem_map.mp hi
    rw [List.mem_singleton.mp hj]
    exact (h.lt_count e he).ne
  · intro e he
    obtain he | he := List.mem_append.mp he
    · exact (h.lt_count e he).trans (Nat.lt_succ_self _)
    · rw [List.mem_singleton.mp he]
      exact Nat.lt_succ_self _
  · intro i hi
    obtain ⟨hlt, halive⟩ := mem_alive.mp hi
    rw [Registry.track, List.map_append, List.mem_append]
    obtain hlt | rfl := Nat.lt_succ_iff_lt_or_eq.mp hlt
    · exact .inl (h.registered i (mem_alive.mpr ⟨hlt, hold hlt ▸ halive⟩))
    · exact .inr (by simp)
  · intro i hi
    obtain hlt | rfl := Nat.lt_succ_iff_lt_or_eq.mp hi
    · simpa only [hold hlt] using h.base_le i hlt
    · simp [Conn.base]

/-- A connection that ends or moves bytes changes no sum of the last tick. -/
theorem Inv.update (h : Inv s) {i : ConnId} {c : Conn} (halive : c.alive = true → (s.conns i).alive)
    (hsampled : c.sampled = (s.conns i).sampled) (hrecv : (s.conns i).received ≤ c.received)
    (hacked : (s.conns i).acked ≤ c.acked) :
    Inv { s with conns := Function.update s.conns i c } := by
  have hconn (j : ConnId) : (Function.update s.conns i c j).sampled = (s.conns j).sampled := by
    by_cases hj : j = i
    · subst hj
      rw [Function.update_self, hsampled]
    · rw [Function.update_of_ne hj]
  have hsum (f : ℕ × ℕ → ℕ) := sum_sampledSet_congr (s := s)
    (t := { s with conns := Function.update s.conns i c }) le_rfl (fun j _ => hconn j)
    (fun j hj hlt => absurd hlt (not_lt.mpr hj)) f
  refine ⟨h.nodup, h.lt_count, fun j hj => ?_, fun j hj => ?_,
    h.totalRecv.trans (hsum Prod.fst).symm, h.totalSent.trans (hsum Prod.snd).symm⟩
  · obtain ⟨hlt, hj⟩ := mem_alive.mp hj
    refine h.registered j (mem_alive.mpr ⟨hlt, ?_⟩)
    by_cases hji : j = i
    · subst hji
      exact halive (by simpa using hj)
    · simpa [hji] using hj
  · have hbase := h.base_le j hj
    by_cases hji : j = i
    · subst hji
      simp only [Function.update_self, Conn.base, hsampled] at hbase ⊢
      omega
    · simpa [hji] using hbase

/-- The connections after a tick that reads those of `seen`. -/
def sampleConns (s : Sampler) (seen : List ConnId) (i : ConnId) : Conn :=
  { s.conns i with
    sampled := if i ∈ seen then some ((s.conns i).received, (s.conns i).acked) else none }

theorem tick_of_seen_eq_nil (h : s.seen readable = []) :
    s.tick readable = { s with
      registry := Registry.sweep (fun i => (s.conns i).alive) s.registry, deltaBytes := none } :=
  if_pos (by rw [h]; rfl)

theorem tick_of_seen_ne_nil (h : s.seen readable ≠ []) :
    s.tick readable =
      { s with
        registry := Registry.sweep (fun i => (s.conns i).alive) s.registry
        lastTotalRecv := ((s.seen readable).map fun i => (s.conns i).received).sum
        lastTotalSent := ((s.seen readable).map fun i => (s.conns i).acked).sum
        tcpInfoInitialized := true
        deltaBytes :=
          if s.tcpInfoInitialized then
            some ((((s.seen readable).map fun i => (s.conns i).received).sum - s.lastTotalRecv) +
              (((s.seen readable).map fun i => (s.conns i).acked).sum - s.lastTotalSent))
          else none
        conns := s.sampleConns (s.seen readable) } :=
  if_neg (by simpa using h)

theorem Inv.base_sampleConns (h : Inv s) {i : ConnId} (hi : i ∈ s.seenSet readable) :
    (s.sampleConns (s.seen readable) i).base = ((s.conns i).received, (s.conns i).acked) := by
  simp only [Conn.base, sampleConns, if_pos (h.mem_seen.mpr hi), Option.getD_some]

/-- The sample of a tick has the connections it reads. -/
theorem Inv.sampledSet_tick (h : Inv s) :
    (Finset.range s.count).filter
        (fun i => (s.sampleConns (s.seen readable) i).sampled.isSome) = s.seenSet readable := by
  ext i
  rw [Finset.mem_filter, Finset.mem_range, ← h.mem_seen, sampleConns]
  by_cases hi : i ∈ s.seen readable
  · have hlt := (mem_alive.mp (Finset.mem_filter.mp (h.mem_seen.mp hi)).1).1
    simp [hi, hlt]
  · simp [hi]

theorem Inv.tick (h : Inv s) (readable : ConnId → Bool) : Inv (s.tick readable) := by
  have hsub : (Registry.sweep (fun i => (s.conns i).alive) s.registry).Sublist s.registry :=
    List.filter_sublist
  have hregistered {i : ConnId} (hi : i ∈ s.alive) :
      i ∈ (Registry.sweep (fun i => (s.conns i).alive) s.registry).map RegistryEntry.conn := by
    obtain ⟨e, he, rfl⟩ := List.mem_map.mp (h.registered i hi)
    exact List.mem_map_of_mem (List.mem_filter.mpr ⟨he, (mem_alive.mp hi).2⟩)
  have hnodup := h.nodup.sublist (hsub.map RegistryEntry.conn)
  have hlt : ∀ e ∈ Registry.sweep (fun i => (s.conns i).alive) s.registry, e.conn < s.count :=
    fun e he => h.lt_count e (hsub.subset he)
  by_cases hseen : s.seen readable = []
  · rw [tick_of_seen_eq_nil hseen]
    exact ⟨hnodup, hlt, fun i hi => hregistered hi, h.base_le, h.totalRecv, h.totalSent⟩
  · have hmem {i : ConnId} (hi : i ∈ (Finset.range s.count).filter
        fun i => (s.sampleConns (s.seen readable) i).sampled.isSome) : i ∈ s.seenSet readable := by
      rwa [← h.sampledSet_tick]
    rw [tick_of_seen_ne_nil hseen]
    refine ⟨hnodup, hlt, fun i hi => hregistered hi, fun i _ => ?_, ?_, ?_⟩
    · by_cases hi : i ∈ s.seen readable <;> simp [Conn.base, sampleConns, hi]
    · exact (h.sum_seen _).trans (Finset.sum_congr h.sampledSet_tick.symm fun i hi =>
        congrArg Prod.fst (h.base_sampleConns (hmem hi)).symm)
    · exact (h.sum_seen _).trans (Finset.sum_congr h.sampledSet_tick.symm fun i hi =>
        congrArg Prod.snd (h.base_sampleConns (hmem hi)).symm)

theorem Inv.step {a : SamplerAction} (h : Inv s) (hs : Sampler.step s a = some t) : Inv t := by
  cases a with
  | opened fd =>
      obtain rfl := Option.some.inj hs
      exact h.opened fd
  | closed i =>
      simp only [Sampler.step] at hs
      split_ifs at hs
      obtain rfl := Option.some.inj hs
      exact h.update (by simp) rfl le_rfl le_rfl
  | moved i received acked =>
      simp only [Sampler.step] at hs
      split_ifs at hs with hi
      obtain rfl := Option.some.inj hs
      exact h.update (fun _ => hi.2) rfl (Nat.le_add_right _ _) (Nat.le_add_right _ _)
  | tick readable =>
      obtain rfl := Option.some.inj hs
      exact h.tick readable

/-! ### The sample -/

/-- The connections of the last tick that are not read. -/
def gone (s : Sampler) (readable : ConnId → Bool) : Finset ConnId :=
  s.sampledSet \ s.seenSet readable

/-- In one direction: what is read, and the counters of the connections that are missing, make up
the sum of the last tick and what the connections read have moved since. -/
theorem sum_add_gone (s : Sampler) (readable : ConnId → Bool) (counter : Conn → ℕ)
    (base : ℕ × ℕ → ℕ) (hzero : base (0, 0) = 0)
    (hle : ∀ i < s.count, base (s.conns i).base ≤ counter (s.conns i)) :
    ∑ i ∈ s.seenSet readable, counter (s.conns i) + ∑ i ∈ s.gone readable, base (s.conns i).base =
      ∑ i ∈ s.sampledSet, base (s.conns i).base +
        ∑ i ∈ s.seenSet readable, (counter (s.conns i) - base (s.conns i).base) := by
  have hread : ∑ i ∈ s.seenSet readable, counter (s.conns i) =
      ∑ i ∈ s.seenSet readable, base (s.conns i).base +
        ∑ i ∈ s.seenSet readable, (counter (s.conns i) - base (s.conns i).base) := by
    rw [← Finset.sum_add_distrib]
    refine Finset.sum_congr rfl fun i hi => ?_
    have hlt := (mem_alive.mp (Finset.mem_filter.mp hi).1).1
    have := hle i hlt
    omega
  -- a connection that was not in the last sample counts from zero
  have hbase : ∑ i ∈ s.seenSet readable, base (s.conns i).base =
      ∑ i ∈ s.sampledSet ∩ s.seenSet readable, base (s.conns i).base := by
    refine (Finset.sum_subset Finset.inter_subset_right fun i hi hnot => ?_).symm
    have hlt := (mem_alive.mp (Finset.mem_filter.mp hi).1).1
    have hnone : (s.conns i).sampled = none := by
      by_contra hsome
      exact hnot (Finset.mem_inter.mpr
        ⟨mem_sampledSet.mpr ⟨hlt, Option.isSome_iff_ne_none.mpr hsome⟩, hi⟩)
    rw [Conn.base, hnone]
    exact hzero
  have hsplit := Finset.sum_inter_add_sum_sdiff s.sampledSet (s.seenSet readable)
    fun i => base (s.conns i).base
  rw [gone, hread, hbase]
  omega

/-- What the live connections have moved: those that are read, in both directions, and the
others. -/
theorem movedBytes_eq (s : Sampler) (readable : ConnId → Bool) :
    s.movedBytes =
      ∑ i ∈ s.alive \ s.seenSet readable, ((s.conns i).movedRecv + (s.conns i).movedSent) +
        (∑ i ∈ s.seenSet readable, (s.conns i).movedRecv +
          ∑ i ∈ s.seenSet readable, (s.conns i).movedSent) := by
  rw [movedBytes, ← Finset.sum_add_distrib]
  exact (Finset.sum_sdiff (Finset.filter_subset _ _)).symm

theorem unhidden_iff :
    s.Unhidden readable ↔
      ∑ i ∈ s.alive \ s.seenSet readable, ((s.conns i).movedRecv + (s.conns i).movedSent) = 0 ∧
      (∑ i ∈ s.seenSet readable, (s.conns i).movedRecv = 0 ∨
        ∑ i ∈ s.gone readable, (s.conns i).base.1 = 0) ∧
      (∑ i ∈ s.seenSet readable, (s.conns i).movedSent = 0 ∨
        ∑ i ∈ s.gone readable, (s.conns i).base.2 = 0) := by
  simp only [Finset.sum_eq_zero_iff, Nat.add_eq_zero_iff, gone]
  exact ⟨fun h => ⟨h.unread, h.recv, h.sent⟩, fun h => ⟨h.1, h.2.1, h.2.2⟩⟩

/-- The second of two ticks that could ask a connection measures what the live connections have
moved since the first, if and only if no traffic is hidden. -/
theorem deltaBytes_exact_iff (hs : Reachable step {} s) (hinit : s.tcpInfoInitialized = true)
    (hseen : (s.seenSet readable).Nonempty) (ht : step s (.tick readable) = some t) :
    t.deltaBytes = some s.movedBytes ↔ s.Unhidden readable := by
  have h : Inv s := hs.invariant Inv.init fun _ _ _ hI _ hstep => hI.step hstep
  have hne : s.seen readable ≠ [] := by
    obtain ⟨i, hi⟩ := hseen
    exact List.ne_nil_of_mem (h.mem_seen.mpr hi)
  obtain rfl := Option.some.inj ht
  have hrecv := s.sum_add_gone readable Conn.received Prod.fst rfl
    fun i hi => (h.base_le i hi).1
  have hsent := s.sum_add_gone readable Conn.acked Prod.snd rfl
    fun i hi => (h.base_le i hi).2
  rw [← h.totalRecv] at hrecv
  rw [← h.totalSent] at hsent
  rw [tick_of_seen_ne_nil hne, unhidden_iff, s.movedBytes_eq readable]
  simp only [hinit, if_true, Option.some.injEq, h.sum_seen, Conn.movedRecv, Conn.movedSent]
    at hrecv hsent ⊢
  omega

/-- Two connections, of which the first moves a million bytes before the first tick and has ended by
the second, and the second moves `later` bytes between them. -/
def twoConnections (later : ℕ) : List SamplerAction :=
  [.opened 10, .opened 11, .moved 0 1000000 0, .tick fun _ => true, .moved 1 later 0, .closed 0]

/-- The first connection has ended and hides what the second one has moved. -/
theorem deltaBytes_hidden :
    ∃ s t, Reachable step {} s ∧ s.tcpInfoInitialized = true ∧
      (s.seenSet fun _ => true).Nonempty ∧ step s (.tick fun _ => true) = some t ∧
      t.deltaBytes = some 0 ∧ s.movedBytes = 50000 := by
  obtain ⟨s, hs, hinit, hseen, hdelta, hmoved⟩ :
      ∃ s, Reachable step {} s ∧ (s.tcpInfoInitialized = true ∧ 1 ∈ s.seenSet (fun _ => true) ∧
        (s.tick fun _ => true).deltaBytes = some 0 ∧ s.movedBytes = 50000) :=
    exists_steps_of_run (l := twoConnections 50000) (fun _ _ _ => trivial) (by decide +kernel)
  exact ⟨s, _, hs, hinit, ⟨1, hseen⟩, rfl, hdelta, hmoved⟩

theorem deltaBytes_exact_iff_twoConnections :
    ∃ s t, step s (.tick fun _ => true) = some t ∧ s.movedBytes = 50000 ∧
      (t.deltaBytes = some s.movedBytes ↔ s.Unhidden fun _ => true) := by
  obtain ⟨s, hs, hinit, hseen, hmoved⟩ :
      ∃ s, Reachable step {} s ∧ (s.tcpInfoInitialized = true ∧ 1 ∈ s.seenSet (fun _ => true) ∧
        s.movedBytes = 50000) :=
    exists_steps_of_run (l := twoConnections 50000) (fun _ _ _ => trivial) (by decide +kernel)
  exact ⟨s, _, rfl, hmoved, deltaBytes_exact_iff hs hinit ⟨1, hseen⟩ rfl⟩

end Sampler

end XtpRs.Upstream
