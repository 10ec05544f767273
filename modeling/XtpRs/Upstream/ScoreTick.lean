import XtpRs.Upstream.Registry
import XtpRs.Upstream.ScoreDecay

/-!
# The atomics of the throughput sample

`Sampler` has the sums of a tick as natural numbers. `run_score_task` of `src/upstream.rs` keeps
them in atomics of 64 bits, and scores the sample (`Score.scoreTick`). As long as the counters of
the connections that a tick reads add up to less than `2 ^ 64`, the atomics hold the sums, and the
sample that is scored is that of `Sampler`.

## Main definitions

* `Sampler.infos`: what a tick reads of the connections.
* `Sampler.Holds`: the atomics hold the sums.
* `Sampler.stepWith`: the sampler and the atomics side by side.

## Main results

* `Sampler.exec_scoreTick`: what a tick scores.
* `Sampler.holds_of_steps`: the atomics hold the sums after every run whose ticks fit.
-/

namespace XtpRs.Upstream

open Lib Prog Score

/-- The counters of a connection, as `get_tcp_info_ext_raw` returns them. -/
def Conn.tcpInfo (c : Conn) : TcpInfo :=
  ⟨.ofNat c.received, .ofNat c.acked⟩

namespace Sampler

variable {n : ℕ} {up : Fin n} {relativeMode : Bool} {now : UInt64} {s t : Sampler}
  {readable : ConnId → Bool} {mem mem' : ∀ c : Cell n, c.Val}

/-- What a tick reads of the connections that are registered and alive. -/
def infos (s : Sampler) (readable : ConnId → Bool) : List (Option TcpInfo) :=
  (Registry.sweep (fun i => (s.conns i).alive) s.registry).map fun e =>
    if readable e.conn then some (s.conns e.conn).tcpInfo else none

/-- The atomics that a tick swaps. -/
def SampleCell (up : Fin n) (c : Cell n) : Prop :=
  c = .u64 up .lastTotalRecv ∨ c = .u64 up .lastTotalSent ∨ c = .flag up .tcpInfoInitialized

/-- The atomics hold the sums. -/
structure Holds (up : Fin n) (s : Sampler) (mem : ∀ c : Cell n, c.Val) : Prop where
  recv : (mem (.u64 up .lastTotalRecv)).toNat = s.lastTotalRecv
  sent : (mem (.u64 up .lastTotalSent)).toNat = s.lastTotalSent
  initialized : mem (.flag up .tcpInfoInitialized) = s.tcpInfoInitialized

/-- The counters that a tick reads add up to less than `2 ^ 64`. -/
def Fits (s : Sampler) (readable : ConnId → Bool) : Prop :=
  ((s.seen readable).map fun i => (s.conns i).received).sum +
    ((s.seen readable).map fun i => (s.conns i).acked).sum < UInt64.size

/-- The atomics after the swaps of a tick. -/
def swapped (up : Fin n) (mem : ∀ c : Cell n, c.Val) (recv sent now : UInt64) :
    ∀ c : Cell n, c.Val :=
  Function.update (Function.update (Function.update (Function.update mem
    (.u64 up .lastTotalRecv) recv) (.u64 up .lastTotalSent) sent) (.u64 up .lastCheckSecs) now)
    (.flag up .tcpInfoInitialized) true

/-- What a tick does with its sample. -/
def scoreSample (up : Fin n) (relativeMode : Bool) (now prevSecs : UInt64) :
    Option ℕ → ScoreM n Unit
  | none => pure ()
  | some deltaBytes =>
    if 1024 * 16 ≤ deltaBytes then
      recordThroughput up relativeMode now (.ofNat deltaBytes)
        (max (saturatingSub now prevSecs) 1)
    else pure ()

/-! ### One tick -/

theorem reduceOption_infos (s : Sampler) (readable : ConnId → Bool) :
    (s.infos readable).reduceOption = (s.seen readable).map fun i => (s.conns i).tcpInfo := by
  rw [infos, seen]
  induction Registry.sweep (fun i => (s.conns i).alive) s.registry with
  | nil => rfl
  | cons e entries ih =>
      rw [List.map_cons, List.map_cons]
      cases hreadable : readable e.conn with
      | true =>
          rw [if_pos rfl, List.reduceOption_cons_of_some, ih,
            List.filter_cons_of_pos hreadable, List.map_cons]
      | false =>
          rw [if_neg Bool.false_ne_true, List.reduceOption_cons_of_none, ih,
            List.filter_cons_of_neg (by simp [hreadable])]

theorem sum_map_ofNat (l : List ConnId) (counter : ConnId → ℕ) :
    (l.map fun i => UInt64.ofNat (counter i)).sum = .ofNat (l.map counter).sum := by
  induction l with
  | nil => rfl
  | cons i l ih =>
      rw [List.map_cons, List.sum_cons, ih, List.map_cons, List.sum_cons, UInt64.ofNat_add]

/-- The sample in 64 bits. -/
theorem toNat_delta {recv sent : ℕ} (hfits : recv + sent < UInt64.size)
    (prevRecv prevSent : UInt64) :
    (saturatingSub (.ofNat recv) prevRecv + saturatingSub (.ofNat sent) prevSent).toNat =
      (recv - prevRecv.toNat) + (sent - prevSent.toNat) := by
  have hsize : UInt64.size = 2 ^ 64 := rfl
  have hrecv : (UInt64.ofNat recv).toNat = recv := UInt64.toNat_ofNat_of_lt' (by omega)
  have hsent : (UInt64.ofNat sent).toNat = sent := UInt64.toNat_ofNat_of_lt' (by omega)
  rw [UInt64.toNat_add, toNat_saturatingSub, toNat_saturatingSub, hrecv, hsent,
    Nat.mod_eq_of_lt (by omega)]

theorem swapped_recv (recv sent now : UInt64) :
    swapped up mem recv sent now (.u64 up .lastTotalRecv) = recv := by
  rw [swapped, Function.update_of_ne (by simp), Function.update_of_ne (by simp),
    Function.update_of_ne (by simp), Function.update_self]

theorem swapped_sent (recv sent now : UInt64) :
    swapped up mem recv sent now (.u64 up .lastTotalSent) = sent := by
  rw [swapped, Function.update_of_ne (by simp), Function.update_of_ne (by simp),
    Function.update_self]

theorem swapped_initialized (recv sent now : UInt64) :
    swapped up mem recv sent now (.flag up .tcpInfoInitialized) = true := by
  rw [swapped, Function.update_self]

/-- **What a tick scores.** It puts its sums into the atomics and goes on with the sample of the
sampler. -/
theorem exec_scoreTick (relativeMode : Bool) (now : UInt64) (h : Holds up s mem)
    (hfits : s.Fits readable) :
    ∃ mem', Holds up (s.tick readable) mem' ∧
      (scoreTick up relativeMode (s.infos readable)).exec now mem =
        (scoreSample up relativeMode now (mem (.u64 up .lastCheckSecs))
          (s.tick readable).deltaBytes).exec now mem' := by
  have hinfos := reduceOption_infos s readable
  by_cases hseen : s.seen readable = []
  · have hnil : (s.infos readable).reduceOption = [] := by rw [hinfos, hseen, List.map_nil]
    have htick := tick_of_seen_eq_nil hseen
    refine ⟨mem, ⟨?_, ?_, ?_⟩, ?_⟩
    · rw [htick]
      exact h.recv
    · rw [htick]
      exact h.sent
    · rw [htick]
      exact h.initialized
    · rw [htick, scoreTick, hnil]
      rfl
  have hne : ((s.seen readable).map fun i => (s.conns i).tcpInfo).length ≠ 0 := by
    rwa [List.length_map, ne_eq, List.length_eq_zero_iff]
  have hrecv : (((s.seen readable).map fun i => (s.conns i).tcpInfo).map
      TcpInfo.bytesReceived).sum =
        .ofNat ((s.seen readable).map fun i => (s.conns i).received).sum := by
    rw [List.map_map]
    exact sum_map_ofNat _ fun i => (s.conns i).received
  have hsent : (((s.seen readable).map fun i => (s.conns i).tcpInfo).map
      TcpInfo.bytesAcked).sum = .ofNat ((s.seen readable).map fun i => (s.conns i).acked).sum := by
    rw [List.map_map]
    exact sum_map_ofNat _ fun i => (s.conns i).acked
  rw [tick_of_seen_ne_nil hseen, scoreTick, hinfos]
  simp only [hrecv, hsent, if_neg hne]
  unfold Fits at hfits
  generalize ((s.seen readable).map fun i => (s.conns i).received).sum = recv at hfits ⊢
  generalize ((s.seen readable).map fun i => (s.conns i).acked).sum = sent at hfits ⊢
  have hsize : UInt64.size = 2 ^ 64 := rfl
  have hmem := toNat_delta hfits (mem (.u64 up .lastTotalRecv)) (mem (.u64 up .lastTotalSent))
  rw [h.recv, h.sent] at hmem
  simp only [nowSecs, exec_bind, exec_ask, exec_swap, Option.bind_some]
  -- the cells that a swap does not write keep their values
  rw [Function.update_of_ne (by simp) _ (Function.update _ _ _),
    Function.update_of_ne (by simp) _ (Function.update _ _ _),
    Function.update_of_ne (by simp) _ mem, h.initialized,
    Function.update_of_ne (by simp) _ (Function.update _ _ _),
    Function.update_of_ne (by simp) _ mem, Function.update_of_ne (by simp) _ mem]
  refine ⟨swapped up mem (.ofNat recv) (.ofNat sent) now, ⟨?_, ?_, ?_⟩, ?_⟩
  · rw [swapped_recv]
    exact UInt64.toNat_ofNat_of_lt' (by omega)
  · rw [swapped_sent]
    exact UInt64.toNat_ofNat_of_lt' (by omega)
  · exact swapped_initialized _ _ _
  · cases s.tcpInfoInitialized with
    | false => rfl
    | true =>
        simp only [if_true, scoreSample, ← hmem, UInt64.ofNat_toNat, UInt64.le_iff_toNat_le]
        rfl

/-- The branch for traffic of 16 KiB and more does not write these atomics. -/
theorem touches_scoreSample (up : Fin n) (relativeMode : Bool) (now prevSecs : UInt64)
    (deltaBytes : Option ℕ) :
    (scoreSample up relativeMode now prevSecs deltaBytes).Touches fun c => ¬SampleCell up c := by
  cases deltaBytes with
  | none => exact trivial
  | some deltaBytes =>
      refine .ite ?_ trivial
      unfold recordThroughput
      refine .ite ?_ ?_
      · exact .bind (.load (by simp [SampleCell])) fun _ =>
          .bind (.store (by simp [SampleCell])) fun _ => .store (by simp [SampleCell])
      · split
        · refine .bind (.load (by simp [SampleCell])) fun old => .bind (.mul _ _) fun a =>
            .bind (.mul _ _) fun b => .bind (.add _ _) fun _ => ?_
          exact .bind (.store (by simp [SampleCell])) fun _ => .store (by simp [SampleCell])
        · exact trivial

/-- A tick keeps the atomics in step with the sampler. -/
theorem Holds.tick (h : Holds up s mem) (hfits : s.Fits readable)
    (hexec : (scoreTick up relativeMode (s.infos readable)).exec now mem = some ((), mem')) :
    Holds up (s.tick readable) mem' := by
  obtain ⟨mem₁, h₁, hscore⟩ := exec_scoreTick relativeMode now h hfits
  rw [hscore] at hexec
  have hkeep {c : Cell n} (hc : SampleCell up c) : mem' c = mem₁ c :=
    (touches_scoreSample up relativeMode now _ _).exec_eq hexec (not_not_intro hc)
  refine ⟨?_, ?_, ?_⟩
  · rw [hkeep (.inl rfl)]
    exact h₁.recv
  · rw [hkeep (.inr (.inl rfl))]
    exact h₁.sent
  · rw [hkeep (.inr (.inr rfl))]
    exact h₁.initialized

/-! ### Runs -/

/-- The sampler and the atomics side by side; a tick reads the clock. -/
def stepWith (up : Fin n) (relativeMode : Bool) (st : Sampler × ∀ c : Cell n, c.Val)
    (a : SamplerAction × UInt64) : Option (Sampler × ∀ c : Cell n, c.Val) := do
  let t ← step st.1 a.1
  match a.1 with
  | .tick readable =>
    let (_, mem) ← (scoreTick up relativeMode (st.1.infos readable)).exec a.2 st.2
    return (t, mem)
  | _ => return (t, st.2)

/-- If this is a tick, the counters that it reads fit. -/
def TickFits (st : Sampler × ∀ c : Cell n, c.Val) (a : SamplerAction × UInt64) : Prop :=
  ∀ readable, a.1 = .tick readable → st.1.Fits readable

/-- The other steps change no sums. -/
theorem Holds.of_not_tick {a : SamplerAction} (h : Holds up s mem) (hs : step s a = some t)
    (ha : ∀ readable, a ≠ .tick readable) : Holds up t mem := by
  cases a with
  | opened fd =>
      obtain rfl := Option.some.inj hs
      exact ⟨h.recv, h.sent, h.initialized⟩
  | closed i =>
      simp only [step] at hs
      split_ifs at hs
      obtain rfl := Option.some.inj hs
      exact ⟨h.recv, h.sent, h.initialized⟩
  | moved i received acked =>
      simp only [step] at hs
      split_ifs at hs
      obtain rfl := Option.some.inj hs
      exact ⟨h.recv, h.sent, h.initialized⟩
  | tick readable => exact absurd rfl (ha readable)

/-- **The atomics hold the sums** after every run from a new upstream whose ticks fit. -/
theorem holds_of_steps {ups : List Upstream} {up : Fin ups.length}
    {st : Sampler × ∀ c : Cell ups.length, c.Val}
    (h : Steps (stepWith up relativeMode) TickFits ({}, initial ups) st) :
    Holds up st.1 st.2 := by
  refine h.invariant (I := fun st => Holds up st.1 st.2) ⟨rfl, rfl, rfl⟩ ?_
  rintro ⟨s, mem⟩ ⟨a, now⟩ u hI hfits hs
  simp only [stepWith, Option.bind_eq_bind, Option.bind_eq_some_iff] at hs
  obtain ⟨t, ht, hs⟩ := hs
  cases a with
  | tick readable =>
      obtain rfl := Option.some.inj ht
      obtain ⟨⟨⟨⟩, mem'⟩, hexec, hs⟩ := Option.bind_eq_some_iff.mp hs
      obtain rfl := Option.some.inj hs
      exact hI.tick (hfits readable rfl) hexec
  | opened fd =>
      obtain rfl := Option.some.inj hs
      exact hI.of_not_tick ht (by simp)
  | closed i =>
      obtain rfl := Option.some.inj hs
      exact hI.of_not_tick ht (by simp)
  | moved i received acked =>
      obtain rfl := Option.some.inj hs
      exact hI.of_not_tick ht (by simp)

end Sampler

end XtpRs.Upstream
