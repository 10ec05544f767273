import XtpRs.Upstream.RelativeTick
import XtpRs.Upstream.ScoreDecay

/-!
# Penalties

`Upstream::penalize` sets all scores of an upstream to the base score of 75, whatever they were. The
programs that write the scores of an upstream leave those of all others as they are.

## Main definitions

* `Score.Scores.base`, `Score.Scores.AtMostBase`: the base score.
* `Score.recordReport`: what the listener for probe reports does with one.
* `Score.ConfinedTo`: a program reads and writes only the atomics of one upstream.

## Main results

* `Score.score_penalize`: a penalty gives the base score.
* `Score.scores_of_confinedTo`: the scores of the other upstreams are left alone.
-/

namespace XtpRs.Upstream

open Lib

namespace Score

/-! ## The base score -/

/-- What a penalty makes of the scores of an upstream. -/
def Scores.base : Scores where
  tcp := defaultScore
  initialized := true
  uplink := defaultScore
  downlink := defaultScore

/-- The TCP score counts, and no score exceeds the base score. -/
structure Scores.AtMostBase (s : Scores) : Prop where
  tcp : s.tcp ≤ defaultScore
  initialized : s.initialized = true
  uplink : s.uplink ≤ defaultScore
  downlink : s.downlink ≤ defaultScore

theorem Scores.atMostBase_base : Scores.base.AtMostBase :=
  ⟨UInt32.le_refl _, rfl, UInt32.le_refl _, UInt32.le_refl _⟩

/-- A mixture does not exceed a bound of its parts. -/
theorem toNat_mix_le {quicValid : Bool} {tcp quic qw : UInt32} {k : ℕ} (hk : k ≤ 1000)
    (htcp : tcp.toNat ≤ k) (hquic : quic.toNat ≤ k) (hqw : qw.toNat ≤ 100) :
    (mix true quicValid tcp quic qw).toNat ≤ k := by
  cases quicValid with
  | false => exact htcp
  | true =>
    rw [toNat_mix (htcp.trans hk) (hquic.trans hk) hqw]
    refine Nat.div_le_of_le_mul ?_
    calc tcp.toNat * (100 - qw.toNat) + quic.toNat * qw.toNat
        ≤ k * (100 - qw.toNat) + k * qw.toNat :=
          Nat.add_le_add (Nat.mul_le_mul_right _ htcp) (Nat.mul_le_mul_right _ hquic)
      _ = 100 * k := by rw [← Nat.mul_add, Nat.sub_add_cancel hqw, Nat.mul_comm]

/-- The mixture of two equal scores is the same score. -/
theorem mix_self {quicValid : Bool} {score qw : UInt32} (hscore : score.toNat ≤ 1000)
    (hqw : qw.toNat ≤ 100) : mix true quicValid score score qw = score := by
  cases quicValid with
  | false => rfl
  | true =>
    rw [← UInt32.toNat_inj, toNat_mix hscore hscore hqw, ← Nat.mul_add, Nat.sub_add_cancel hqw]
    exact Nat.mul_div_cancel _ (by decide)

variable {n : ℕ} {mem : ∀ c : Cell n, c.Val} {up : Fin n} {now x : UInt64}

open Cell

/-- While no score exceeds the base score, the score of the upstream does not, at any time. -/
theorem scoreOf_le_base (hmem : ∀ c, InRange c (mem c)) (h : (scores mem up).AtMostBase) :
    scoreOf mem up now ≤ defaultScore := by
  have hpart {score : UInt32} (hscore : score ≤ defaultScore) {stale last : UInt64} (r : UInt32)
      (hr : decay now stale score last = some r) : r.toNat ≤ 75 :=
    (toNat_decay_le_max hr).trans (max_le (UInt32.le_iff_toNat_le.mp hscore) (by decide))
  have hinit : mem (flag up .tcpScoreInitialized) = true := h.initialized
  rw [UInt32.le_iff_toNat_le, scoreOf, hinit]
  refine toNat_mix_le (by decide) (UInt32.le_iff_toNat_le.mp h.tcp) ?_ (hmem (u32 up .quicWeight))
  exact toNat_combineQuic_le (by decide) le_rfl (hpart h.uplink) (hpart h.downlink)

/-- What a penalty writes. -/
theorem exec_penalize (mem : ∀ c : Cell n, c.Val) (up : Fin n) (now : UInt64) :
    ∃ mem', (penalize up).exec now mem = some ((), mem') ∧ scores mem' up = .base ∧
      mem' (u64 up .quicUplinkLastUpdateSecs) = now ∧
      mem' (u64 up .quicDownlinkLastUpdateSecs) = now ∧
      mem' (u32 up .quicWeight) = mem (u32 up .quicWeight) ∧
      mem' (u64 up .quicStaleSecs) = mem (u64 up .quicStaleSecs) :=
  ⟨_, rfl, by ext <;> simp [scores, Scores.base], by simp, by simp, by simp, by simp⟩

/-- Where no other write has come between, an upstream has the base score right after a penalty. -/
theorem scoreOf_eq_base (hmem : ∀ c, InRange c (mem c)) (h : scores mem up = .base)
    (hup : now ≤ mem (u64 up .quicUplinkLastUpdateSecs))
    (hdown : now ≤ mem (u64 up .quicDownlinkLastUpdateSecs)) :
    scoreOf mem up now = defaultScore := by
  have hstale : 0 < (mem (u64 up .quicStaleSecs) : UInt64).toNat := hmem (u64 up .quicStaleSecs)
  -- a direction with a timestamp has not decayed yet
  have hpart {score : UInt32} {last : UInt64} (hscore : score = defaultScore) (hlast : now ≤ last) :
      decay now (mem (u64 up .quicStaleSecs)) score last = none ∨
        decay now (mem (u64 up .quicStaleSecs)) score last = some defaultScore := by
    cases hr : decay now (mem (u64 up .quicStaleSecs)) score last with
    | none => exact .inl rfl
    | some r =>
      subst hscore
      rw [decay_of_le hlast hstale (by decide) hr]
      exact .inr rfl
  have hquic : combineQuic (uplinkPart mem up now) (downlinkPart mem up now) = defaultScore := by
    unfold uplinkPart downlinkPart
    rcases hpart (congrArg Scores.uplink h) hup with hu | hu <;>
      rcases hpart (congrArg Scores.downlink h) hdown with hd | hd <;>
        · change combineQuic (decay _ _ (scores mem up).uplink _)
            (decay _ _ (scores mem up).downlink _) = _
          rw [hu, hd]
          rfl
  have htcp : mem (u32 up .tcpScore) = defaultScore := congrArg Scores.tcp h
  have hinit : mem (flag up .tcpScoreInitialized) = true := congrArg Scores.initialized h
  rw [scoreOf, hquic, htcp, hinit]
  exact mix_self (by decide) (hmem (u32 up .quicWeight))

section Reachable

variable {ups : List Upstream} {s : Calls ups}

/-- **A penalty gives the base score.** In every state that calls on configured upstreams reach, and
at every time, the score right after a penalty is exactly 75, whatever it was right before it; so a
penalty does not raise a score that was at least 75. -/
theorem score_penalize (hups : ∀ up ∈ ups, up.Configured)
    (hs : Reachable (Calls.step ups) (Calls.start ups) s) (up : Fin ups.length) (now : UInt64) :
    ∃ before after mem, (scoreAt up now).exec now s.mem = some (before, s.mem) ∧
      (penalize up).exec now s.mem = some ((), mem) ∧
      (scoreAt up now).exec now mem = some (after, mem) ∧
      after = defaultScore ∧ (defaultScore ≤ before → after ≤ before) := by
  have hmem := inRange_of_reachable hups hs
  obtain ⟨mem, hexec, hscores, hup, hdown, -, -⟩ := exec_penalize s.mem up now
  have hcall : (Call.body ups (.penalize up)).exec now s.mem = some (.unit, mem) := by
    rw [Call.body, Prog.exec_bind, hexec]
    rfl
  -- a penalty that runs alone is one of the calls, so the state after it is reached too
  obtain ⟨t, ht, rfl⟩ : ∃ t, Reachable (Calls.step ups) s t ∧ t.mem = mem :=
    Pool.reachable_call hcall
  have hrange := inRange_of_reachable hups (hs.trans ht)
  have hbase := scoreOf_eq_base hrange hscores (by rw [hup]; exact UInt64.le_refl _)
    (by rw [hdown]; exact UInt64.le_refl _)
  exact ⟨_, _, t.mem, exec_scoreAt hmem, hexec, exec_scoreAt hrange, hbase, fun h => hbase.symm ▸ h⟩

/-- A report has given 302 to an upstream. A penalty takes it down to 75. -/
theorem score_penalize_reported :
    ∃ s, Reachable (Calls.step [Config.loneUpstreamBuilt]) (Calls.start [Config.loneUpstreamBuilt])
        s ∧ (scoreAt 0 100).exec 100 s.mem = some (302, s.mem) ∧
      ∃ mem, (penalize 0).exec 100 s.mem = some ((), mem) ∧
        (scoreAt 0 100).exec 100 mem = some (defaultScore, mem) := by
  obtain ⟨s, hs, hscore⟩ : ∃ s, Reachable (Calls.step [Config.loneUpstreamBuilt])
      (Calls.start [Config.loneUpstreamBuilt]) s ∧ scoreOf s.mem 0 100 = 302 :=
    exists_steps_of_run (l := reported 0 400) (fun _ _ _ => trivial) (by decide +kernel)
  obtain ⟨_, _, mem, -, hexec, hafter, rfl, -⟩ :=
    score_penalize configured_loneUpstreamBuilt hs 0 100
  exact ⟨s, hs, hscore ▸ exec_scoreAt (inRange_of_reachable configured_loneUpstreamBuilt hs), mem,
    hexec, hafter⟩

/-- After a report of the worst quality the score is 22. A penalty raises it to 75. -/
theorem not_penalize_le :
    ¬∀ ups : List Upstream, (∀ up ∈ ups, up.Configured) →
      ∀ s, Reachable (Calls.step ups) (Calls.start ups) s →
      ∀ (up : Fin ups.length) (now : UInt64) (before after : UInt32) (mem : ∀ c, Cell.Val c),
        (scoreAt up now).exec now s.mem = some (before, s.mem) →
        (penalize up).exec now s.mem = some ((), mem) →
        (scoreAt up now).exec now mem = some (after, mem) → after ≤ before := by
  intro h
  obtain ⟨s, hs, hscore⟩ : ∃ s, Reachable (Calls.step [Config.loneUpstreamBuilt])
      (Calls.start [Config.loneUpstreamBuilt]) s ∧
        scoreOf s.mem 0 100 = 22 ∧ scoreOf (((penalize 0).exec 100 s.mem).elim s.mem Prod.snd) 0 100
          = 75 :=
    exists_steps_of_run (l := reported 0 0) (fun _ _ _ => trivial) (by decide +kernel)
  have hmem := inRange_of_reachable configured_loneUpstreamBuilt hs
  obtain ⟨_, mem, hexec, -, hrange⟩ := (safe_penalize 0).exec hmem 100
  rw [hexec] at hscore
  have hle := h [Config.loneUpstreamBuilt] configured_loneUpstreamBuilt s hs 0 100 _ _ mem
    (exec_scoreAt hmem) hexec (exec_scoreAt hrange)
  rw [hscore.1] at hle
  exact absurd (hscore.2.symm.trans_le hle) (by decide)

end Reachable

/-! ## What a program leaves alone -/

/-- What the listener for probe reports does with one. -/
def recordReport (relativeMode : Bool) (up : Fin n) (score : Option UInt32) (q : Option ℚ)
    (link : Option Str) : ScoreM n Unit :=
  if relativeMode then
    match q with
    | some q => setProbeQuality up q link
    | none => pure ()
  else if link = some downlink then updateDownlinkScore up score
  else updateUplinkScore up score

/-- The program reads and writes only the atomics of one upstream. -/
abbrev ConfinedTo {α : Type} (up : Fin n) (p : ScoreM n α) : Prop := p.Touches fun c => c.owner = up

theorem confined_recordThroughput (up : Fin n) (relativeMode : Bool)
    (now deltaBytes deltaSecs : UInt64) :
    ConfinedTo up (recordThroughput up relativeMode now deltaBytes deltaSecs) := by
  unfold recordThroughput
  refine .ite ?_ ?_
  · exact .bind .load fun _ => .bind .store fun _ => .store
  · split
    · refine .bind .load fun old => .bind (.mul _ _) fun a => .bind (.mul _ _) fun b => ?_
      exact .bind (.add _ _) fun _ => .bind .store fun _ => .store
    · exact trivial

theorem confined_scoreTick (up : Fin n) (relativeMode : Bool) (infos : List (Option TcpInfo)) :
    ConfinedTo up (scoreTick up relativeMode infos) := by
  refine .ite trivial (.bind (fun _ => trivial) fun now => .bind .swap fun _ => ?_)
  refine .bind .swap fun _ => .bind .swap fun _ => .bind .swap fun _ => ?_
  exact .ite (.ite (confined_recordThroughput up relativeMode now _ _) trivial) trivial

theorem confined_updateLinkScore (up : Fin n) (raw : Option UInt32) (score : U32Field)
    (lastUpdate : U64Field) : ConfinedTo up (updateLinkScore up raw score lastUpdate) := by
  cases raw with
  | none => exact trivial
  | some raw =>
    refine .bind (fun _ => trivial) fun now => .bind .load fun last => .ite trivial ?_
    refine .bind .compareExchange fun ok => .ite ?_ trivial
    refine .bind .load fun old => .bind (.mul _ _) fun a => .bind (.mul _ _) fun b => ?_
    exact .bind (.add _ _) fun _ => .store

theorem confined_setProbeQuality (up : Fin n) (q : ℚ) (link : Option Str) :
    ConfinedTo up (setProbeQuality up q link) :=
  .bind .store fun _ => .bind (fun _ => trivial) fun _ => .bind .store fun _ => .store

theorem confined_recordReport (relativeMode : Bool) (up : Fin n) (score : Option UInt32)
    (q : Option ℚ) (link : Option Str) :
    ConfinedTo up (recordReport relativeMode up score q link) := by
  have hscore := confined_updateLinkScore up score
  refine .ite ?_ (.ite (hscore _ _) (hscore _ _))
  cases q with
  | none => exact trivial
  | some q => exact confined_setProbeQuality up q link

theorem confined_penalize (up : Fin n) : ConfinedTo up (penalize up) := by
  refine .bind .store fun _ => .bind .store fun _ => .bind .store fun _ => ?_
  refine .bind .store fun _ => .bind (fun _ => trivial) fun now => ?_
  exact .bind .store fun _ => .store

theorem confined_recordHealth (failThreshold : UInt32) (up : Fin n) (alive : Bool) :
    ConfinedTo up (recordHealth failThreshold up alive) := by
  refine .ite ?_ ?_
  · exact .bind .swap fun failures =>
      .ite (.bind .store fun _ => .store) trivial
  · exact .bind .fetchModify fun before => .ite (confined_penalize up) trivial

/-- A program that is confined to one upstream leaves the scores of the others as they are. -/
theorem scores_of_confinedTo {α : Type} {other : Fin n} {p : ScoreM n α} {a : α}
    {mem' : ∀ c : Cell n, c.Val} (hp : ConfinedTo other p) (h : p.exec x mem = some (a, mem'))
    (hne : up ≠ other) : scores mem' up = scores mem up :=
  scores_congr fun _ hc => hp.exec_eq h fun heq =>
    hne ((owner_of_mem_scoreCells hc).symm.trans heq)

end Score

end XtpRs.Upstream
