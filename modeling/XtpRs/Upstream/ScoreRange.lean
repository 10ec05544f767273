import XtpRs.Upstream.Score
import XtpRs.Config.Validate

/-!
# Scores stay in range

The scores of an upstream are written by several tasks that share no lock. Each field has a limit
that does not depend on the other fields: 1000 for a score, 100 for the weight of the QUIC part. A
program that reads values within the limits writes values within them, and its arithmetic fits in
`u32`; so the limits hold however the accesses of the tasks are interleaved.

## Main definitions

* `Score.InRange`: the limit of each atomic.
* `Score.Calls.WithinLimits`: what holds of the scores, of the arithmetic of all calls, and of what
  they return.

## Main results

* `Score.safe_body`: every call keeps the limits.
* `Config.scores_within_limits`: every interleaving of calls keeps them.
-/

namespace XtpRs.Upstream

open Lib

/-! ## Conversions and clamps -/

theorem floor_toNat_le {q : ℚ} {k : ℕ} (h : q ≤ k) : q.floor.toNat ≤ k := by
  have hfloor : (q.floor : ℚ) ≤ k := (Int.floor_le q).trans h
  have hint : q.floor ≤ (k : ℤ) := by exact_mod_cast hfloor
  omega

theorem le_floor_toNat {q : ℚ} {k : ℕ} (h : (k : ℚ) ≤ q) : k ≤ q.floor.toNat := by
  have hint : (k : ℤ) ≤ q.floor := Int.le_floor.mpr (by exact_mod_cast h)
  omega

theorem toNat_truncU32 (q : ℚ) : (truncU32 q).toNat = min q.floor.toNat (UInt32.size - 1) := by
  have hlt : min q.floor.toNat (UInt32.size - 1) < UInt32.size :=
    (min_le_right _ _).trans_lt (by decide)
  exact UInt32.toNat_ofNat_of_lt' hlt

theorem truncU32_mono {q r : ℚ} (h : q ≤ r) : truncU32 q ≤ truncU32 r := by
  rw [UInt32.le_iff_toNat_le, toNat_truncU32, toNat_truncU32]
  exact min_le_min_right _ (Int.toNat_le_toNat (Int.floor_mono h))

theorem toNat_truncU32_le {q : ℚ} {k : ℕ} (h : q ≤ k) : (truncU32 q).toNat ≤ k := by
  rw [toNat_truncU32]
  exact (min_le_left _ _).trans (floor_toNat_le h)

theorem toNat_truncU64_bounds {q : ℚ} {lo hi : ℕ} (hlo : (lo : ℚ) ≤ q) (hhi : q ≤ hi)
    (hsize : hi < UInt64.size) : lo ≤ (truncU64 q).toNat ∧ (truncU64 q).toNat ≤ hi := by
  have hfloor := floor_toNat_le hhi
  have hmin : min q.floor.toNat (UInt64.size - 1) = q.floor.toNat := min_eq_left (by omega)
  rw [truncU64, hmin, UInt64.toNat_ofNat_of_lt' (by omega)]
  exact ⟨le_floor_toNat hlo, hfloor⟩

theorem le_clamp {q lo hi : ℚ} (h : lo ≤ hi) : lo ≤ clamp q lo hi := by
  unfold clamp
  split_ifs with hlo hhi
  · exact le_rfl
  · exact h
  · exact not_lt.mp hlo

theorem clamp_le {q lo hi : ℚ} (h : lo ≤ hi) : clamp q lo hi ≤ hi := by
  unfold clamp
  split_ifs with hlo hhi
  · exact h
  · exact le_rfl
  · exact not_lt.mp hhi

theorem toNat_min_le (a b : UInt32) : (min a b).toNat ≤ b.toNat := by
  change (if a ≤ b then a else b).toNat ≤ b.toNat
  split_ifs with h
  · exact UInt32.le_iff_toNat_le.mp h
  · exact le_rfl

theorem toNat_max (a b : UInt32) : (max a b).toNat = max a.toNat b.toNat := by
  change (if a ≤ b then b else a).toNat = max a.toNat b.toNat
  split_ifs with h
  · exact (max_eq_right (UInt32.le_iff_toNat_le.mp h)).symm
  · exact (max_eq_left (UInt32.lt_iff_toNat_lt.mp (UInt32.not_le.mp h)).le).symm

theorem toNat_max_le {a b : UInt32} {k : ℕ} (ha : a.toNat ≤ k) (hb : b.toNat ≤ k) :
    (max a b).toNat ≤ k := by
  rw [toNat_max]
  exact max_le ha hb

theorem le_toNat_max (a b : UInt64) : b.toNat ≤ (max a b).toNat := by
  change b.toNat ≤ (if a ≤ b then b else a).toNat
  split_ifs with h
  · exact le_rfl
  · exact (UInt64.lt_iff_toNat_lt.mp (UInt64.not_le.mp h)).le

theorem toNat_relativeScore_le (value maxValue : ℚ) :
    (relativeScore value maxValue).toNat ≤ 1000 := by
  unfold relativeScore
  split_ifs
  · exact Nat.zero_le _
  · exact toNat_truncU32_le (by exact_mod_cast clamp_le (by norm_num))

theorem toNat_calcThroughputScore_le {totalBytes : UInt64} {secs : ℚ} {raw : UInt32}
    (h : calcThroughputScore totalBytes secs = some raw) : raw.toNat ≤ 1000 := by
  -- the pieces of the formula need not be told apart: what is returned is clamped
  unfold calcThroughputScore at h
  split at h
  · cases h
  · split at h
    · cases h
    · obtain rfl := Option.some.inj h
      exact toNat_min_le _ 1000

/-- A score and the part of it that is left after some of its time stay below one bound. -/
theorem toNat_decay_le {now staleSecs lastUpdateSecs : UInt64} {score r : UInt32}
    (hscore : score.toNat ≤ 1000) (h : Score.decay now staleSecs score lastUpdateSecs = some r) :
    r.toNat ≤ 1000 := by
  simp only [Score.decay] at h
  split_ifs at h with _ hstale
  · obtain rfl := Option.some.inj h
    decide
  · obtain rfl := Option.some.inj h
    have hlt : saturatingSub now lastUpdateSecs < staleSecs := UInt64.not_le.mp hstale
    have hle : (staleSecs - saturatingSub now lastUpdateSecs).toNat ≤ staleSecs.toNat := by
      rw [UInt64.toNat_sub_of_le _ _ (UInt64.le_of_lt hlt)]
      exact Nat.sub_le _ _
    have hfactor : ((staleSecs - saturatingSub now lastUpdateSecs).toNat : ℚ) /
        staleSecs.toNat ≤ 1 :=
      div_le_one_of_le₀ (by exact_mod_cast hle) (Nat.cast_nonneg _)
    have hdecayed : (score.toNat : ℚ) *
        ((staleSecs - saturatingSub now lastUpdateSecs).toNat / staleSecs.toNat) ≤ (1000 : ℕ) :=
      (mul_le_of_le_one_right (Nat.cast_nonneg _) hfactor).trans (by exact_mod_cast hscore)
    exact toNat_max_le (toNat_truncU32_le hdecayed) (by decide)

namespace Score

variable {n : ℕ}

/-! ## The limits -/

/-- The greatest value of a field. -/
def U32Field.limit : U32Field → ℕ
  | tcpScore => 1000
  | quicUplinkScore => 1000
  | quicDownlinkScore => 1000
  | quicWeight => 100
  | healthFailures => UInt32.size - 1

/-- The values of an atomic in range. The time after which a QUIC score is out of date is never
zero. -/
def InRange : ∀ c : Cell n, c.Val → Prop
  | .u32 _ field, v => v.toNat ≤ field.limit
  | .u64 _ .quicStaleSecs, v => 1 ≤ v.toNat
  | _, _ => True

open Prog Cell

/-- Only one of the `u64` fields has a limit. -/
theorem inRange_u64 (up : Fin n) {field : U64Field} (h : field ≠ .quicStaleSecs) (v : UInt64) :
    InRange (u64 up field) v := by
  cases field
  case quicStaleSecs => exact absurd rfl h
  all_goals exact trivial

/-- The mixture of two scores, with weights that add up to `total`, is computed without overflow and
stays below a bound of both. -/
theorem safe_blend {α : Type} {I : ∀ c : Cell n, c.Val → Prop} {a x b y : UInt32} {k : ℕ}
    (total : UInt32) {g : UInt32 → ScoreM n α} {post : α → Prop} (hk : k ≤ 1000)
    (hw : x.toNat + y.toNat = total.toNat) (hlt : total.toNat * 1000 < UInt32.size)
    (ha : a.toNat ≤ k) (hb : b.toNat ≤ k)
    (h : ∀ r : UInt32, (r / total).toNat ≤ k → (g r).Safe I post) :
    (mul a x >>= fun p => mul b y >>= fun q => add p q >>= g).Safe I post := by
  have hsum : a.toNat * x.toNat + b.toNat * y.toNat ≤ total.toNat * k :=
    calc a.toNat * x.toNat + b.toNat * y.toNat
        ≤ k * x.toNat + k * y.toNat :=
          Nat.add_le_add (Nat.mul_le_mul_right _ ha) (Nat.mul_le_mul_right _ hb)
      _ = total.toNat * k := by rw [← Nat.mul_add, hw, Nat.mul_comm]
  have hsize : total.toNat * k < UInt32.size := (Nat.mul_le_mul_left _ hk).trans_lt hlt
  refine .bind (.mul (by omega) fun p hp => .bind (.mul (by omega) fun q hq => .bind ?_))
  refine .add (by omega) fun r hr => h r ?_
  rw [UInt32.toNat_div]
  exact Nat.div_le_of_le_mul (by omega)

/-- The mean of two scores is computed without overflow and stays below a bound of both. -/
theorem safe_mean {α : Type} {I : ∀ c : Cell n, c.Val → Prop} {a b : UInt32} {k : ℕ}
    {g : UInt32 → ScoreM n α} {post : α → Prop} (hk : k ≤ 1000) (ha : a.toNat ≤ k)
    (hb : b.toNat ≤ k) (h : ∀ r : UInt32, (r / 2).toNat ≤ k → (g r).Safe I post) :
    (add a b >>= g).Safe I post := by
  have hlt : a.toNat + b.toNat < UInt32.size := by
    have hsize : UInt32.size = 2 ^ 32 := rfl
    omega
  refine .bind (.add hlt fun r hr => h r ?_)
  rw [UInt32.toNat_div, hr]
  exact Nat.div_le_of_le_mul (show a.toNat + b.toNat ≤ 2 * k by omega)

theorem safe_setQuicWeight (up : Fin n) (w : UInt32) :
    (setQuicWeight up w).Safe InRange fun _ => True :=
  .store (toNat_min_le w 100) trivial

theorem safe_setQuicStaleSecs (up : Fin n) (secs : UInt64) :
    (setQuicStaleSecs up secs).Safe InRange fun _ => True :=
  .store (le_toNat_max secs 1) trivial

theorem safe_recordThroughput (up : Fin n) (relativeMode : Bool)
    (now deltaBytes deltaSecs : UInt64) :
    (recordThroughput up relativeMode now deltaBytes deltaSecs).Safe InRange fun _ => True := by
  unfold recordThroughput
  refine .ite (fun _ => ?_) fun _ => ?_
  · exact .bind (.load fun _ _ => .bind (.store trivial (.store trivial trivial)))
  · split
    · next raw hraw =>
      have hraw' : raw.toNat ≤ 1000 := toNat_calcThroughputScore_le hraw
      refine .bind (.load fun old hold => ?_)
      refine safe_blend 10 le_rfl (by decide) (by decide) hold hraw' fun r hr => ?_
      exact .bind (.store hr (.store trivial trivial))
    · exact .pure trivial

theorem safe_scoreTick (up : Fin n) (relativeMode : Bool) (infos : List (Option TcpInfo)) :
    (scoreTick up relativeMode infos).Safe InRange fun _ => True := by
  refine .ite (fun _ => .pure trivial) fun _ => ?_
  refine .bind (.ask fun now => .bind (.swap trivial fun prevRecv _ => ?_))
  refine .bind (.swap trivial fun prevSent _ => .bind (.swap trivial fun prevSecs _ => ?_))
  refine .bind (.swap trivial fun initialized _ => .ite (fun _ => ?_) fun _ => .pure trivial)
  refine .ite (fun _ => ?_) fun _ => .pure trivial
  exact safe_recordThroughput up relativeMode now _ _

theorem safe_runScoreTask (up : Fin n) (relativeMode : Bool)
    (ticks : List (List (Option TcpInfo))) :
    (runScoreTask up relativeMode ticks).Safe InRange fun _ => True :=
  .forM fun infos _ => safe_scoreTick up relativeMode infos

/-- Either direction of the QUIC score is updated within its limit. -/
theorem safe_updateLinkScore (up : Fin n) (raw : Option UInt32) {score : U32Field}
    {lastUpdate : U64Field} (hscore : score.limit = 1000) (hlast : lastUpdate ≠ .quicStaleSecs) :
    (updateLinkScore up raw score lastUpdate).Safe InRange fun _ => True := by
  cases raw with
  | none => exact .pure trivial
  | some raw =>
    refine .bind (.ask fun now => .bind (.load fun last _ => ?_))
    refine .ite (fun _ => .pure trivial) fun _ => ?_
    refine .bind (.compareExchange (inRange_u64 up hlast now) fun ok => ?_)
    refine .ite (fun _ => ?_) fun _ => .pure trivial
    refine .bind (.load fun old hold => ?_)
    refine safe_blend 10 le_rfl (by decide) (by decide) (hold.trans_eq hscore)
      (toNat_min_le raw 1000) fun r hr => ?_
    exact .store (hr.trans_eq hscore.symm) trivial

theorem safe_setProbeQuality (up : Fin n) (q : ℚ) (link : Option Str) :
    (setProbeQuality up q link).Safe InRange fun _ => True := by
  refine .bind (.store trivial (.bind (.ask fun now => .bind (.store ?_ (.store trivial trivial)))))
  refine inRange_u64 up ?_ now
  split_ifs
  · exact nofun
  · exact nofun

theorem safe_penalize (up : Fin n) : (penalize up).Safe InRange fun _ => True := by
  have hdefault : defaultScore.toNat ≤ 1000 := by decide
  refine .bind (.store hdefault (.bind (.store trivial (.bind (.store hdefault ?_)))))
  refine .bind (.store hdefault (.bind (.ask fun now => ?_)))
  exact .bind (.store trivial (.store trivial trivial))

theorem safe_recordHealth (failThreshold : UInt32) (up : Fin n) (alive : Bool) :
    (recordHealth failThreshold up alive).Safe InRange fun _ => True := by
  have hfree (v : UInt32) : InRange (u32 up .healthFailures) v := Nat.le_pred_of_lt v.toNat_lt
  refine .ite (fun _ => ?_) fun _ => ?_
  · refine .bind (.swap (hfree 0) fun failures _ => .ite (fun _ => ?_) fun _ => .pure trivial)
    exact .bind (.store (by decide : (300 : UInt32).toNat ≤ 1000) (.store trivial trivial))
  · refine .bind (.fetchModify (fun v _ => hfree (v + 1)) fun before _ => ?_)
    exact .ite (fun _ => safe_penalize up) fun _ => .pure trivial

theorem safe_runHealthCheckTask (failThreshold : UInt32) (rounds : List (Fin n → Bool)) :
    (runHealthCheckTask failThreshold rounds).Safe InRange fun _ => True :=
  .forM fun alive _ => .forM fun up _ => safe_recordHealth failThreshold up (alive up)

theorem safe_loadIf (cond : Bool) (c : Cell n) (default : c.Val) :
    (loadIf cond c default).Safe InRange fun _ => True :=
  .ite (fun _ => .load fun _ _ => trivial) fun _ => .pure trivial

theorem safe_snap (now staleSecs : UInt64) (up : Fin n) :
    (snap now staleSecs up).Safe InRange fun _ => True := by
  refine .bind (.load fun rateLast _ => .seq (safe_loadIf _ _ _) fun rate => ?_)
  exact .bind (.load fun qLast _ => .seq (safe_loadIf _ _ _) fun q => .pure trivial)

theorem safe_writeRelativeQuic (maxQEma : ℚ) (snap : Snap n) :
    (writeRelativeQuic maxQEma snap).Safe InRange fun _ => True := by
  have hrel := toNat_relativeScore_le snap.q maxQEma
  refine .ite (fun _ => ?_) fun _ => .pure trivial
  exact .bind (.store hrel (.store hrel trivial))

theorem safe_writeRelativeTcp (maxRateEma maxQEma : ℚ) (snap : Snap n) :
    (writeRelativeTcp maxRateEma maxQEma snap).Safe InRange fun _ => True := by
  refine .ite (fun _ => ?_) fun _ => ?_
  · have hrel := toNat_relativeScore_le snap.rate maxRateEma
    refine .bind (.load fun old hold => ?_)
    exact safe_mean le_rfl hold hrel fun r hr => .bind (.store hr (.store trivial trivial))
  · refine .bind (.load fun initialized _ => .ite (fun _ => ?_) fun _ => .pure trivial)
    refine .bind (.store ?_ (.store trivial trivial))
    split_ifs
    · exact toNat_relativeScore_le _ _
    · exact toNat_relativeScore_le _ _

theorem safe_relativeTick (staleSecs : UInt64) (maxRateEma maxQEma : ℚ) :
    (relativeTick staleSecs maxRateEma maxQEma : ScoreM n (ℚ × ℚ)).Safe InRange fun _ => True := by
  refine .bind (.ask fun now => .seq (.mapM fun up _ => safe_snap now staleSecs up) fun snaps => ?_)
  refine .seq (.forM fun snap _ => ?_) fun _ => .pure trivial
  exact .seq (safe_writeRelativeQuic _ snap) fun _ => safe_writeRelativeTcp _ _ snap

theorem safe_relativeTicks (staleSecs : UInt64) (ticks : ℕ) (maxRateEma maxQEma : ℚ) :
    (relativeTicks staleSecs ticks maxRateEma maxQEma : ScoreM n Unit).Safe InRange
      fun _ => True := by
  induction ticks generalizing maxRateEma maxQEma with
  | zero => exact .pure trivial
  | succ ticks ih =>
    exact .seq (safe_relativeTick staleSecs maxRateEma maxQEma) fun emas => ih emas.1 emas.2

/-! ## The reads -/

theorem safe_quicScoreEffectiveAt (up : Fin n) (now : UInt64) :
    (quicScoreEffectiveAt up now).Safe InRange fun r => r.toNat ≤ 1000 := by
  refine .bind (.load fun staleSecs _ => .bind (.load fun uplinkScore hup => ?_))
  refine .bind (.load fun uplinkLast _ => .bind (.load fun downlinkScore hdown => ?_))
  refine .bind (.load fun downlinkLast _ => ?_)
  split
  · next u d hu hd =>
    exact safe_mean le_rfl (toNat_decay_le hup hu) (toNat_decay_le hdown hd) fun r hr => .pure hr
  · next u hu _ => exact .pure (toNat_decay_le hup hu)
  · next d _ hd => exact .pure (toNat_decay_le hdown hd)
  · exact .pure (by decide)

theorem safe_quicValid (up : Fin n) : (quicValid up).Safe InRange fun _ => True := by
  refine .bind (.load fun uplinkLast _ => .ite (fun _ => .pure trivial) fun _ => ?_)
  exact .bind (.load fun downlinkLast _ => .pure trivial)

theorem safe_scoreAt (up : Fin n) (now : UInt64) :
    (scoreAt up now).Safe InRange fun r => r.toNat ≤ 1000 := by
  refine .bind (.load fun tcp htcp => .bind ((safe_quicScoreEffectiveAt up now).mono ?_))
  intro quic hquic
  refine .bind (.load fun tcpValid _ => .seq (safe_quicValid up) fun quicValid => ?_)
  refine .bind (.load fun qw hqw => .bind (.sub hqw fun tw htw => ?_))
  split
  · have hqw' : qw.toNat ≤ (100 : UInt32).toNat := hqw
    have hw : tw.toNat + qw.toNat = (100 : UInt32).toNat := by omega
    exact safe_blend 100 le_rfl hw (by decide) htcp hquic fun r hr => .pure hr
  · exact .pure hquic
  · exact .pure htcp
  · exact .pure (by decide)

/-- With a gain that is a number the effective score is in range, whatever the score. -/
theorem safe_effectiveScoreAt (gain : ℚ) (up : Fin n) (now : UInt64) :
    (effectiveScoreAt (.finite gain) up now).Safe InRange
      fun r => 1 ≤ r.toNat ∧ r.toNat ≤ 10000000 := by
  refine .bind ((safe_scoreAt up now).mono fun rawScore _ => .pure ?_)
  have hle : (1 : ℚ) ≤ 10000000 := by norm_num
  refine toNat_truncU64_bounds ?_ ?_ (by decide)
  · exact_mod_cast le_clamp hle
  · exact_mod_cast clamp_le hle

/-- What a call may return. -/
def Call.Post : Call n → Outcome → Prop
  | scoreAt _ _, o => ∃ r : UInt32, o = .score r ∧ r.toNat ≤ 1000
  | effectiveScoreAt _ _, o => ∃ r : UInt64, o = .effective r ∧ 1 ≤ r.toNat ∧ r.toNat ≤ 10000000
  | _, _ => True

end Score

/-- What the checks of a configuration give for each upstream built from it. -/
structure Configured (up : Upstream) : Prop where
  gain : ∃ g, up.gain = .finite g ∧ 0 < g
  quicWeight : up.quicWeight.toNat ≤ 100
  quicStaleSecs : 1 ≤ up.quicStaleSecs.toNat

namespace Score

variable {ups : List Upstream}

/-- Every call keeps the limits. -/
theorem safe_body (hups : ∀ up ∈ ups, up.Configured) (call : Call ups.length) :
    (call.body ups).Safe InRange call.Post := by
  cases call with
  | setQuicWeight up w => exact .seq (safe_setQuicWeight up w) fun _ => .pure trivial
  | setQuicStaleSecs up secs => exact .seq (safe_setQuicStaleSecs up secs) fun _ => .pure trivial
  | runScoreTask up mode ticks =>
    exact .seq (safe_runScoreTask up mode ticks) fun _ => .pure trivial
  | updateUplinkScore up raw =>
    exact .seq (safe_updateLinkScore up raw rfl nofun) fun _ => .pure trivial
  | updateDownlinkScore up raw =>
    exact .seq (safe_updateLinkScore up raw rfl nofun) fun _ => .pure trivial
  | setProbeQuality up q link => exact .seq (safe_setProbeQuality up q link) fun _ => .pure trivial
  | penalize up => exact .seq (safe_penalize up) fun _ => .pure trivial
  | runHealthCheckTask threshold rounds =>
    exact .seq (safe_runHealthCheckTask threshold rounds) fun _ => .pure trivial
  | runRelativeScoreTask staleSecs ticks =>
    exact .seq (safe_relativeTicks staleSecs ticks 0 0) fun _ => .pure trivial
  | scoreAt up now => exact .bind ((safe_scoreAt up now).mono fun r hr => .pure ⟨r, rfl, hr⟩)
  | effectiveScoreAt up now =>
    obtain ⟨g, hg, -⟩ := (hups _ (ups.get_mem up)).gain
    have hsafe := safe_effectiveScoreAt g up now
    rw [← hg] at hsafe
    exact .bind (hsafe.mono fun r hr => .pure ⟨r, rfl, hr⟩)

theorem inRange_initial (hups : ∀ up ∈ ups, up.Configured) (c : Cell ups.length) :
    InRange c (initial ups c) := by
  cases c with
  | u32 up field =>
    cases field with
    | quicWeight => exact (hups _ (ups.get_mem up)).quicWeight
    | tcpScore => exact (by decide : defaultScore.toNat ≤ 1000)
    | quicUplinkScore => exact (by decide : defaultScore.toNat ≤ 1000)
    | quicDownlinkScore => exact (by decide : defaultScore.toNat ≤ 1000)
    | healthFailures => exact Nat.zero_le _
  | u64 up field =>
    cases field with
    | quicStaleSecs => exact (hups _ (ups.get_mem up)).quicStaleSecs
    | _ => exact trivial
  | f64 up field => exact trivial
  | flag up field => exact trivial

/-- The scores and the weight of every upstream are in range, no call has failed in an arithmetic
operation, and what the reads have returned is in range. -/
structure Calls.WithinLimits (s : Calls ups) : Prop where
  tcpScore : ∀ up, s.mem (.u32 up .tcpScore) ≤ (1000 : UInt32)
  quicUplinkScore : ∀ up, s.mem (.u32 up .quicUplinkScore) ≤ (1000 : UInt32)
  quicDownlinkScore : ∀ up, s.mem (.u32 up .quicDownlinkScore) ≤ (1000 : UInt32)
  quicWeight : ∀ up, s.mem (.u32 up .quicWeight) ≤ (100 : UInt32)
  noFault : ∀ t ∈ s.threads, t.2 ≠ .fault
  scoreAt : ∀ up now p o, (Call.scoreAt up now, p) ∈ s.threads → p.result = some o →
    ∃ r, o = .score r ∧ r ≤ 1000
  effectiveScoreAt : ∀ up now p o, (Call.effectiveScoreAt up now, p) ∈ s.threads →
    p.result = some o → ∃ r, o = .effective r ∧ 1 ≤ r ∧ r ≤ 10000000

theorem Calls.withinLimits_of_inv {s : Calls ups} (h : s.Inv InRange Call.Post) :
    s.WithinLimits where
  tcpScore up := UInt32.le_iff_toNat_le.mpr (h.mem (.u32 up .tcpScore))
  quicUplinkScore up := UInt32.le_iff_toNat_le.mpr (h.mem (.u32 up .quicUplinkScore))
  quicDownlinkScore up := UInt32.le_iff_toNat_le.mpr (h.mem (.u32 up .quicDownlinkScore))
  quicWeight up := UInt32.le_iff_toNat_le.mpr (h.mem (.u32 up .quicWeight))
  noFault := by
    intro t ht hfault
    have hsafe := h.threads t ht
    rw [hfault] at hsafe
    exact hsafe
  scoreAt := by
    intro up now p o ht ho
    obtain ⟨r, hr, hle⟩ := (h.threads _ ht).result ho
    exact ⟨r, hr, UInt32.le_iff_toNat_le.mpr hle⟩
  effectiveScoreAt := by
    intro up now p o ht ho
    obtain ⟨r, hr, hge, hle⟩ := (h.threads _ ht).result ho
    exact ⟨r, hr, UInt64.le_iff_toNat_le.mpr hge, UInt64.le_iff_toNat_le.mpr hle⟩

end Score

end XtpRs.Upstream

namespace XtpRs

open Lib Upstream

namespace Config

variable {parseIpNet : Str → Option IpNet} {c : Config} {set : UpstreamSet}

theorem exists_gain_of_validate (h : c.validate parseIpNet = .ok ()) {up : UpstreamConfig}
    (hup : up ∈ c.upstream) : ∃ g, up.gain = .finite g ∧ 0 < g := by
  rw [validate, bind_unit_eq_ok_iff, bind_unit_eq_ok_iff] at h
  have hgain := checkAll_eq_ok_iff.mp h.2.1 up hup
  rw [checkGain, ensure_eq_ok_iff] at hgain
  cases hg : up.gain with
  | nan => simp [hg, F64.isFinite] at hgain
  | infinite negative => simp [hg, F64.isFinite] at hgain
  | finite g => exact ⟨g, rfl, by simpa [hg, F64.isFinite, F64.leZero] using hgain⟩

/-- The upstreams of a set built from an accepted configuration have a positive gain, and a weight
and a time limit in range. -/
theorem configured_of_mem (hv : c.validate parseIpNet = .ok ()) (hb : c.buildUpstreamSet = .ok set)
    {up : Upstream} (hup : up ∈ set.allItems) : up.Configured := by
  rw [UpstreamSet.allItems_of_new (new_of_buildUpstreamSet hb), List.map_map, List.mem_map] at hup
  obtain ⟨conf, hconf, rfl⟩ := hup
  refine ⟨exists_gain_of_validate hv hconf, toNat_min_le c.quicWeight 100, ?_⟩
  change 1 ≤ (if 1 ≤ c.quicStaleSecs then c.quicStaleSecs else 1).toNat
  split_ifs with hle
  · exact UInt64.le_iff_toNat_le.mp hle
  · exact le_rfl

/-- **Scores stay in range.** Let the set be built from an accepted configuration, and let any calls
that read or write scores be made on its upstreams, at any time and with any arguments, and be
interleaved at every access to an atomic. In every state reached the scores are at most 1000 and the
weight of the QUIC part is at most 100, no addition, product or subtraction of scores has overflowed
or underflowed, every score returned is at most 1000, and every effective score returned lies
between 1 and 10000000. -/
theorem scores_within_limits (hv : c.validate parseIpNet = .ok ())
    (hb : c.buildUpstreamSet = .ok set) {s : Score.Calls set.allItems}
    (h : Reachable (Score.Calls.step set.allItems) (Score.Calls.start set.allItems) s) :
    s.WithinLimits := by
  have hups : ∀ up ∈ set.allItems, up.Configured := fun _ hup => configured_of_mem hv hb hup
  refine Score.Calls.withinLimits_of_inv (Pool.inv_of_reachable (Score.safe_body hups) ?_ h)
  exact ⟨Score.inRange_initial hups, by simp [Score.Calls.start]⟩

/-- One upstream, with a gain of 20000. -/
def loneUpstream : Config where
  upstream := [{ id := [0x61], addr := .v4 ⟨127, 0, 0, 1⟩ 1080, gain := .finite 20000 }]

/-- The upstream that is built from `loneUpstream`. -/
def loneUpstreamBuilt : Upstream where
  id := [0x61]
  addr := .v4 ⟨127, 0, 0, 1⟩ 1080
  groups := [defaultGroup]
  gain := .finite 20000

/-- A report of the greatest `u32` is interleaved with a penalty, which comes after the report has
read the score and before it writes the mixture. Then the effective score is read. -/
def staleUpdate : List (Pool.Action UInt64 (Score.Call 1)) :=
  List.flatten [
    [.call (.updateUplinkScore 0 (some 4294967295)), .call (.penalize 0),
      .call (.effectiveScoreAt 0 100)],
    List.replicate 4 (.advance 0 100),
    List.replicate 7 (.advance 1 101),
    [.advance 0 100],
    List.replicate 9 (.advance 2 0)]

theorem scores_within_limits_staleUpdate :
    ∃ s : Score.Calls [loneUpstreamBuilt],
      Reachable (Score.Calls.step [loneUpstreamBuilt]) (Score.Calls.start [loneUpstreamBuilt]) s ∧
        s.threads.map (fun t => t.2.result) = [some .unit, some .unit, some (.effective 4080000)] ∧
        s.WithinLimits := by
  have hv : loneUpstream.validate (fun _ => none) = .ok () := by decide +kernel
  obtain ⟨set, hb, hitems⟩ : ∃ set, loneUpstream.buildUpstreamSet = .ok set ∧
      set.allItems = [loneUpstreamBuilt] := ⟨_, rfl, by decide +kernel⟩
  have hlimits := fun s => scores_within_limits (s := s) hv hb
  rw [hitems] at hlimits
  obtain ⟨s, hs, hresults⟩ : ∃ s, Reachable (Score.Calls.step [loneUpstreamBuilt])
      (Score.Calls.start [loneUpstreamBuilt]) s ∧
        s.threads.map (fun t => t.2.result) =
          [some .unit, some .unit, some (.effective 4080000)] :=
    exists_steps_of_run (l := staleUpdate) (fun _ _ _ => trivial) (by decide +kernel)
  exact ⟨s, hs, hresults, hlimits s hs⟩

end Config

end XtpRs
