import XtpRs.Lib.Interference
import XtpRs.Upstream.Penalty

/-!
# How long a penalty lasts

After `Upstream::penalize` the tasks that write scores go on, and their accesses to the atomics are
interleaved. A penalty leaves the cached measurements of the upstream as they are, so a tick of
`run_relative_score_task` that finds them fresh computes scores from them again; and a call that was
under way at the penalty may still write what it has computed from values read before.

Evidence about an upstream is a throughput sample that a tick of `run_score_task` comes to record, a
probe report, or a round of the health checks that finds the upstream alive. Without any the scores
stay at most at the base score as long as every relative tick comes to them with measurements that
are worth no more, and the calls under way at the penalty are harmless.

## Main definitions

* `Score.NoEvidence`: a step that brings nothing new about an upstream.
* `Score.TickKeepsBase`, `Score.KeepsBase`: a relative tick finds no measurement above the base
  score.
* `Score.Harmless`: what a call has left to do does not lift the scores of an upstream.
* `Score.JustPenalized`: a penalty has been written, and nothing under way undoes it.

## Main results

* `Score.harmless_body`: every call but a report is harmless before it has begun.
* `Score.relativeTick_keeps_iff`: which ticks keep the base score, if no other call interrupts them.
* `Score.penalty_lasts`: how long a penalty lasts.
-/

namespace XtpRs.Upstream

open Lib

namespace Score

open Cell Prog

variable {n : ℕ} {α : Type} {up : Fin n} {mem : ∀ c : Cell n, c.Val}

/-! ## Evidence, and ticks without -/

/-- A tick of `run_score_task` has found 16 KiB or more of new traffic and comes to record them. -/
def AtSample (up : Fin n) (p : ScoreM n α) : Prop :=
  ∃ (relativeMode : Bool) (now deltaBytes deltaSecs : UInt64) (rest : Unit → ScoreM n α),
    1024 * 16 ≤ deltaBytes ∧ 1 ≤ deltaSecs ∧
      p = recordThroughput up relativeMode now deltaBytes deltaSecs >>= rest

/-- A round of the health checks has found the upstream alive and comes to record it. -/
def AtAlive (up : Fin n) (p : ScoreM n α) : Prop :=
  ∃ (failThreshold : UInt32) (rest : Unit → ScoreM n α),
    p = recordHealth failThreshold up true >>= rest

/-- The call is a probe report for the upstream. -/
def Call.Reports (up : Fin n) : Call n → Prop
  | updateUplinkScore other _ => other = up
  | updateDownlinkScore other _ => other = up
  | setProbeQuality other _ _ => other = up
  | _ => False

/-- In what it has left to do a call comes to evidence about the upstream. -/
def Call.Finds (up : Fin n) (p : ScoreM n α) : Call n → Prop
  | runScoreTask _ _ _ => AtSample up p
  | runHealthCheckTask _ _ => AtAlive up p
  | _ => False

/-- Where a relative tick comes to the scores of the upstream, the measurements it has collected
lift none of them above the base score: a probe quality is worth at most 75 against the average, and
a rate at most what is missing from the TCP score to a mean below 76. -/
structure TickKeepsBase (up : Fin n) (mem : ∀ c : Cell n, c.Val) (p : ScoreM n α) : Prop where
  q : ∀ (maxQEma : ℚ) (snap : Snap n) (rest : Unit → ScoreM n α),
    p = writeRelativeQuic maxQEma snap >>= rest → snap.up = up → 0 < maxQEma → snap.hasQ = true →
      relativeScore snap.q maxQEma ≤ defaultScore
  rate : ∀ (maxRateEma maxQEma : ℚ) (snap : Snap n) (rest : Unit → ScoreM n α),
    p = writeRelativeTcp maxRateEma maxQEma snap >>= rest → snap.up = up → 0 < maxRateEma →
      snap.hasRate = true →
      (scores mem up).tcp.toNat + (relativeScore snap.rate maxRateEma).toNat ≤ 151

/-- Every relative tick keeps to the base score. -/
def Call.KeepsBase (up : Fin n) (mem : ∀ c : Cell n, c.Val) (p : ScoreM n α) : Call n → Prop
  | runRelativeScoreTask _ _ => TickKeepsBase up mem p
  | _ => True

section Runs

variable {ups : List Upstream}

/-- The step brings no new throughput sample, no new probe report and no successful health check for
the upstream. -/
def NoEvidence (up : Fin ups.length) (s : Calls ups) :
    Pool.Action UInt64 (Call ups.length) → Prop
  | .call k => ¬k.Reports up
  | .advance i _ => ∀ k p, s.threads[i]? = some (k, p) → ¬k.Finds up p

/-- If the step is one of a relative tick, this keeps to the base score. -/
def KeepsBase (up : Fin ups.length) (s : Calls ups) :
    Pool.Action UInt64 (Call ups.length) → Prop
  | .call _ => True
  | .advance i _ => ∀ k p, s.threads[i]? = some (k, p) → k.KeepsBase up s.mem p

end Runs

/-- The two conditions, for the operations of one call. -/
def Call.cond (up : Fin n) (k : Call n) : Cond (Cell.Val (n := n)) UInt64 where
  holds p mem := ¬k.Finds up p ∧ k.KeepsBase up mem p
  of_bind := by
    rintro α β p g mem ⟨hfinds, hkeeps⟩
    refine ⟨fun h => hfinds ?_, ?_⟩
    · cases k with
      | runScoreTask other relativeMode ticks =>
        obtain ⟨mode, now, deltaBytes, deltaSecs, rest, hbytes, hsecs, rfl⟩ := h
        exact ⟨mode, now, deltaBytes, deltaSecs, _, hbytes, hsecs, bind_assoc _ _ _⟩
      | runHealthCheckTask threshold rounds =>
        obtain ⟨failThreshold, rest, rfl⟩ := h
        exact ⟨failThreshold, _, bind_assoc _ _ _⟩
      | _ => exact h
    · cases k with
      | runRelativeScoreTask staleSecs ticks =>
        refine ⟨fun maxQEma snap rest h => ?_, fun maxRateEma maxQEma snap rest h => ?_⟩
        · exact hkeeps.q maxQEma snap _ (by rw [h, bind_assoc])
        · exact hkeeps.rate maxRateEma maxQEma snap _ (by rw [h, bind_assoc])
      | _ => trivial

/-! ## What a penalty leaves -/

/-- The limits of the atomics of a penalized upstream: no score exceeds the base score, and the TCP
score counts. -/
def AtBase (up : Fin n) : ∀ c : Cell n, c.Val → Prop
  | .u32 other .tcpScore, v => other = up → v ≤ defaultScore
  | .u32 other .quicUplinkScore, v => other = up → v ≤ defaultScore
  | .u32 other .quicDownlinkScore, v => other = up → v ≤ defaultScore
  | .flag other .tcpScoreInitialized, v => other = up → v = true
  | _, _ => True

/-- The limits of all atomics, with those of a penalized upstream. -/
def WithinBase (up : Fin n) (c : Cell n) (v : c.Val) : Prop := InRange c v ∧ AtBase up c v

/-- Whatever a call reads, as long as it comes to no evidence and keeps to the base score in its
relative ticks, what it has left to do keeps the limits. -/
def Harmless (up : Fin n) (k : Call n) (p : ScoreM n Outcome) : Prop :=
  p.SafeWhile (WithinBase up) (k.cond up) fun _ => True

/-- A call comes to the last write of a penalty for the upstream at the reading `now`: that of a
failed connection, or that of the failed health check with which the threshold is reached. -/
def Call.EndsPenalty (up : Fin n) (now : UInt64) (p : ScoreM n Outcome) : Call n → Prop
  | penalize _ => ∃ rest, p = store (u64 up .quicDownlinkLastUpdateSecs) now >>= rest
  | runHealthCheckTask _ _ => ∃ rest, p = store (u64 up .quicDownlinkLastUpdateSecs) now >>= rest
  | _ => False

/-- The scores and the timestamp that a penalty at the reading `now` has written are in place, and
the calls under way are harmless. -/
structure JustPenalized {ups : List Upstream} (up : Fin ups.length) (now : UInt64)
    (s : Calls ups) : Prop where
  scores : Score.scores s.mem up = .base
  uplink : now ≤ (s.mem (u64 up .quicUplinkLastUpdateSecs) : UInt64)
  harmless : ∀ (i : ℕ) k p, s.threads[i]? = some (k, p) → Harmless up k p

theorem atBase_of_scores (h : (scores mem up).AtMostBase) (c : Cell n) : AtBase up c (mem c) := by
  cases c with
  | u32 other field =>
    cases field with
    | tcpScore => exact fun hother => hother ▸ h.tcp
    | quicUplinkScore => exact fun hother => hother ▸ h.uplink
    | quicDownlinkScore => exact fun hother => hother ▸ h.downlink
    | healthFailures => trivial
    | quicWeight => trivial
  | flag other field =>
    cases field with
    | tcpScoreInitialized => exact fun hother => hother ▸ h.initialized
    | tcpInfoInitialized => trivial
  | u64 other field => trivial
  | f64 other field => trivial

theorem atMostBase_of_within (h : ∀ c, WithinBase up c (mem c)) : (scores mem up).AtMostBase where
  tcp := (h (u32 up .tcpScore)).2 rfl
  initialized := (h (flag up .tcpScoreInitialized)).2 rfl
  uplink := (h (u32 up .quicUplinkScore)).2 rfl
  downlink := (h (u32 up .quicDownlinkScore)).2 rfl

/-- The atomics of another upstream are not limited. -/
theorem atBase_of_owner_ne {c : Cell n} (h : c.owner ≠ up) (v : c.Val) : AtBase up c v := by
  cases c with
  | u32 other field => cases field <;> first | exact fun hother => absurd hother h | trivial
  | flag other field => cases field <;> first | exact fun hother => absurd hother h | trivial
  | u64 other field => trivial
  | f64 other field => trivial

/-! ## Calls that are harmless -/

section Calls

variable {I : ∀ c : Cell n, c.Val → Prop} {G : Cond (Cell.Val (n := n)) UInt64} {post : α → Prop}
  {other : Fin n}

/-- A program for another upstream keeps the limits of the penalized one. -/
theorem safe_of_confined {p : ScoreM n α} (hp : p.Safe InRange post) (hc : ConfinedTo other p)
    (hne : other ≠ up) : p.Safe (WithinBase up) post :=
  hp.of_writes hc.writes fun _ howner => atBase_of_owner_ne (howner.symm ▸ hne)

/-- A program that only reads keeps them. -/
theorem safe_of_reads {p : ScoreM n α} (hp : p.Safe InRange post)
    (hr : p.Writes fun _ => False) : p.Safe (WithinBase up) post :=
  hp.of_writes hr fun _ h => h.elim

/-- Where the next operation cannot meet the condition, nothing is left to show. -/
theorem safeWhile_of_not {p : ScoreM n α} (hp : ∃ c f k, p = atomic c f k)
    (h : ∀ mem, ¬G.holds p mem) : p.SafeWhile I G post := by
  obtain ⟨c, f, k, rfl⟩ := hp
  exact fun mem _ hG => absurd hG (h mem)

theorem exists_calcThroughputScore {bytes secs : UInt64} (hbytes : 1024 * 16 ≤ bytes)
    (hsecs : 1 ≤ secs) : ∃ raw, calcThroughputScore bytes secs.toNat = some raw := by
  have hpos : (0 : ℚ) < secs.toNat := by exact_mod_cast UInt64.le_iff_toNat_le.mp hsecs
  rw [calcThroughputScore, if_neg (UInt64.not_lt.mpr hbytes), if_neg (not_le.mpr hpos)]
  exact ⟨_, rfl⟩

/-- Recording a sample is evidence. -/
theorem safeWhile_recordThroughput {task : Fin n} {mode relativeMode : Bool}
    {ticks : List (List (Option TcpInfo))} {now deltaBytes deltaSecs : UInt64}
    {post : Unit → Prop} (hbytes : 1024 * 16 ≤ deltaBytes) (hsecs : 1 ≤ deltaSecs) :
    (recordThroughput up relativeMode now deltaBytes deltaSecs).SafeWhile I
      ((Call.runScoreTask task mode ticks).cond up) post := by
  refine safeWhile_of_not ?_ fun mem hG => hG.1 ?_
  · cases relativeMode with
    | true => exact ⟨_, _, _, rfl⟩
    | false =>
      obtain ⟨raw, hraw⟩ := exists_calcThroughputScore hbytes hsecs
      rw [recordThroughput, if_neg Bool.false_ne_true, hraw]
      exact ⟨_, _, _, rfl⟩
  · exact ⟨relativeMode, now, deltaBytes, deltaSecs, pure, hbytes, hsecs, (bind_pure _).symm⟩

theorem safeWhile_scoreTick {task : Fin n} {mode relativeMode : Bool}
    {ticks : List (List (Option TcpInfo))} (infos : List (Option TcpInfo)) :
    (scoreTick other relativeMode infos).SafeWhile (WithinBase up)
      ((Call.runScoreTask task mode ticks).cond up) fun _ => True := by
  by_cases hother : other = up
  · subst hother
    refine .ite (fun _ => .pure trivial) fun _ => ?_
    -- the counters have no limits
    refine .bind (Safe.ask fun now => ?_).safeWhile
    refine .bind (Safe.swap ⟨trivial, trivial⟩ fun _ _ => ?_).safeWhile
    refine .bind (Safe.swap ⟨trivial, trivial⟩ fun _ _ => ?_).safeWhile
    refine .bind (Safe.swap ⟨trivial, trivial⟩ fun _ _ => ?_).safeWhile
    refine .bind (Safe.swap ⟨trivial, trivial⟩ fun initialized _ => ?_).safeWhile
    refine .ite (fun _ => .ite (fun hbytes => ?_) fun _ => .pure trivial) fun _ => .pure trivial
    exact safeWhile_recordThroughput hbytes (UInt64.le_iff_toNat_le.mpr (le_toNat_max _ 1))
  · exact (safe_of_confined (safe_scoreTick other relativeMode infos)
      (confined_scoreTick other relativeMode infos) hother).safeWhile

/-- A penalty writes the base score. -/
theorem safe_penalize_within (other : Fin n) :
    (penalize other).Safe (WithinBase up) fun _ => True := by
  have hdefault : defaultScore.toNat ≤ 1000 := by decide
  have hbase : defaultScore ≤ defaultScore := UInt32.le_refl _
  refine .bind (.store ⟨hdefault, fun _ => hbase⟩ (.bind (.store ⟨trivial, fun _ => rfl⟩ ?_)))
  refine .bind (.store ⟨hdefault, fun _ => hbase⟩ (.bind (.store ⟨hdefault, fun _ => hbase⟩ ?_)))
  refine .bind (.ask fun now => .bind (.store ⟨trivial, trivial⟩ ?_))
  exact .store ⟨trivial, trivial⟩ trivial

theorem safeWhile_recordHealth {threshold : UInt32} {rounds : List (Fin n → Bool)}
    (failThreshold : UInt32) (alive : Bool) :
    (recordHealth failThreshold other alive).SafeWhile (WithinBase up)
      ((Call.runHealthCheckTask threshold rounds).cond up) fun _ => True := by
  cases alive with
  | true =>
    by_cases hother : other = up
    · subst hother
      refine safeWhile_of_not ⟨_, _, _, rfl⟩ fun mem hG => hG.1 ?_
      exact ⟨failThreshold, pure, (bind_pure _).symm⟩
    · exact (safe_of_confined (safe_recordHealth failThreshold other true)
        (confined_recordHealth failThreshold other true) hother).safeWhile
  | false =>
    have hfree (v : UInt32) : WithinBase up (u32 other .healthFailures) v :=
      ⟨Nat.le_pred_of_lt v.toNat_lt, trivial⟩
    refine .bind (Safe.fetchModify (fun v _ => hfree (v + 1)) fun before _ => ?_).safeWhile
    exact .ite (fun _ => (safe_penalize_within other).safeWhile) fun _ => .pure trivial

section Relative

variable {staleSecs : UInt64} {ticks : ℕ}

theorem reads_snap (now staleSecs : UInt64) (other : Fin n) :
    (snap now staleSecs other).Writes fun _ => False := by
  refine .bind .load fun rateLast => .bind (.ite .load trivial) fun rate => ?_
  exact .bind .load fun qLast => .bind (.ite .load trivial) fun q => trivial

theorem confined_writeRelativeQuic (maxQEma : ℚ) (snap : Snap n) :
    ConfinedTo snap.up (writeRelativeQuic maxQEma snap) :=
  .ite (.bind .store fun _ => .store) trivial

theorem confined_writeRelativeTcp (maxRateEma maxQEma : ℚ) (snap : Snap n) :
    ConfinedTo snap.up (writeRelativeTcp maxRateEma maxQEma snap) := by
  refine .ite ?_ ?_
  · refine .bind .load fun old => .bind (.add _ _) fun _ => ?_
    exact .bind .store fun _ => .store
  · exact .bind .load fun initialized => .ite (.bind .store fun _ => .store) trivial

/-- What a relative tick writes to the QUIC scores. -/
theorem safeWhile_writeRelativeQuic (maxQEma : ℚ) (snap : Snap n) :
    (writeRelativeQuic maxQEma snap).SafeWhile (WithinBase up)
      ((Call.runRelativeScoreTask staleSecs ticks).cond up) fun _ => True := by
  have hsafe := safe_writeRelativeQuic maxQEma snap
  by_cases hup : snap.up = up
  · by_cases h : 0 < maxQEma ∧ snap.hasQ = true
    · have hprog : writeRelativeQuic maxQEma snap = (do
          store (u32 snap.up .quicUplinkScore) (relativeScore snap.q maxQEma)
          store (u32 snap.up .quicDownlinkScore) (relativeScore snap.q maxQEma)) := if_pos h
      have hlimit := toNat_relativeScore_le snap.q maxQEma
      rw [hprog]
      intro mem _ hG
      have hrel : relativeScore snap.q maxQEma ≤ defaultScore :=
        hG.2.q maxQEma snap pure (by rw [bind_pure, hprog]; rfl) hup h.1 h.2
      exact ⟨⟨hlimit, fun _ => hrel⟩, fun _ _ _ => ⟨⟨hlimit, fun _ => hrel⟩, trivial⟩⟩
    · rw [writeRelativeQuic, if_neg h]
      exact .pure trivial
  · exact (safe_of_confined hsafe (confined_writeRelativeQuic maxQEma snap) hup).safeWhile

/-- What a relative tick writes to the TCP score. -/
theorem safeWhile_writeRelativeTcp (maxRateEma maxQEma : ℚ) (snap : Snap n) :
    (writeRelativeTcp maxRateEma maxQEma snap).SafeWhile (WithinBase up)
      ((Call.runRelativeScoreTask staleSecs ticks).cond up) fun _ => True := by
  have hsafe := safe_writeRelativeTcp maxRateEma maxQEma snap
  by_cases hup : snap.up = up
  · by_cases h : snap.hasRate = true ∧ 0 < maxRateEma
    · have hprog : writeRelativeTcp maxRateEma maxQEma snap = (do
          let old : UInt32 ← load (u32 snap.up .tcpScore)
          let sum ← add old (relativeScore snap.rate maxRateEma)
          store (u32 snap.up .tcpScore) (sum / 2)
          store (flag snap.up .tcpScoreInitialized) true) := if_pos h
      rw [hprog]
      intro mem hmem hG
      refine ⟨hmem _, ?_⟩
      change SafeWhile _ _ _ (add _ _ >>= _)
      refine Safe.safeWhile ?_
      have hsum := hG.2.rate maxRateEma maxQEma snap pure (by rw [bind_pure, hprog]; rfl) hup h.2
        h.1
      rw [← hup] at hsum
      have hlt : (mem (u32 snap.up .tcpScore) : UInt32).toNat +
          (relativeScore snap.rate maxRateEma).toNat < UInt32.size :=
        hsum.trans_lt (by decide)
      refine .bind (.add hlt fun r hr => .bind (.store ?_ (.store ⟨trivial, fun _ => rfl⟩ trivial)))
      have hle : (r / 2).toNat ≤ 75 := by
        rw [UInt32.toNat_div, hr]
        exact (Nat.div_le_div_right hsum).trans (by decide)
      exact ⟨hle.trans (by decide), fun _ => UInt32.le_iff_toNat_le.mpr hle⟩
    · rw [writeRelativeTcp, if_neg h]
      -- the TCP score counts already, so no seed is planted
      refine .bind (Safe.load fun initialized hinit => ?_).safeWhile
      have htrue : initialized = true := hinit.2 hup
      rw [if_neg (by simp [htrue])]
      exact .pure trivial
  · exact (safe_of_confined hsafe (confined_writeRelativeTcp maxRateEma maxQEma snap) hup).safeWhile

theorem safeWhile_relativeTick (stale : UInt64) (maxRateEma maxQEma : ℚ) :
    (relativeTick stale maxRateEma maxQEma : ScoreM n (ℚ × ℚ)).SafeWhile (WithinBase up)
      ((Call.runRelativeScoreTask staleSecs ticks).cond up) fun _ => True := by
  have hsnaps (now : UInt64) :
      ((List.finRange n).mapM' (snap now stale)).Safe (WithinBase up) fun _ => True :=
    .mapM fun other _ => safe_of_reads (safe_snap now stale other) (reads_snap now stale other)
  refine .bind (Safe.ask fun now => .seq (hsnaps now).safeWhile fun snaps => ?_).safeWhile
  refine .seq (.forM fun snap _ => ?_) fun _ => .pure trivial
  exact .seq (safeWhile_writeRelativeQuic _ snap) fun _ => safeWhile_writeRelativeTcp _ _ snap

theorem safeWhile_relativeTicks (stale : UInt64) (k : ℕ) (maxRateEma maxQEma : ℚ) :
    (relativeTicks stale k maxRateEma maxQEma : ScoreM n Unit).SafeWhile (WithinBase up)
      ((Call.runRelativeScoreTask staleSecs ticks).cond up) fun _ => True := by
  induction k generalizing maxRateEma maxQEma with
  | zero => exact .pure trivial
  | succ k ih =>
    exact .seq (safeWhile_relativeTick stale maxRateEma maxQEma) fun emas => ih emas.1 emas.2

end Relative

/-! ### Reading a score -/

theorem reads_scoreAt (other : Fin n) (now : UInt64) :
    (scoreAt other now).Writes fun _ => False := by
  have harith {a b : UInt32} : (add a b : ScoreM n UInt32).Writes fun _ => False :=
    .ite trivial trivial
  have hmul {a b : UInt32} : (mul a b : ScoreM n UInt32).Writes fun _ => False :=
    .ite trivial trivial
  refine .bind .load fun tcp => .bind ?_ fun quic => .bind .load fun tcpValid => .bind ?_ ?_
  · refine .bind .load fun staleSecs => .bind .load fun uplinkScore => ?_
    refine .bind .load fun uplinkLast => .bind .load fun downlinkScore => ?_
    refine .bind .load fun downlinkLast => ?_
    split
    · exact .bind harith fun _ => trivial
    all_goals trivial
  · exact .bind .load fun uplinkLast => .ite trivial (.bind .load fun _ => trivial)
  · refine fun quicValid => .bind .load fun qw => .bind (.ite trivial trivial) fun tw => ?_
    split
    · exact .bind hmul fun _ => .bind hmul fun _ => .bind harith fun _ => trivial
    all_goals trivial

/-- While the limits hold, a score that is read is at most the base score, however the reads are
interleaved with other accesses. -/
theorem safe_scoreAt_base (up : Fin n) (now : UInt64) :
    (scoreAt up now).Safe (WithinBase up) fun r => r.toNat ≤ 75 := by
  have hle {v : UInt32} (h : v ≤ defaultScore) : v.toNat ≤ 75 := UInt32.le_iff_toNat_le.mp h
  have hdecay {stale score last r : _} (hscore : score ≤ defaultScore)
      (hr : decay now stale score last = some r) : r.toNat ≤ 75 :=
    (toNat_decay_le_max hr).trans (max_le (hle hscore) (by decide))
  have hquic : (quicScoreEffectiveAt up now).Safe (WithinBase up) fun r => r.toNat ≤ 75 := by
    refine .bind (.load fun staleSecs _ => .bind (.load fun uplinkScore hup => ?_))
    refine .bind (.load fun uplinkLast _ => .bind (.load fun downlinkScore hdown => ?_))
    refine .bind (.load fun downlinkLast _ => ?_)
    split
    · next u d hu hd =>
      exact safe_mean (by decide) (hdecay (hup.2 rfl) hu) (hdecay (hdown.2 rfl) hd)
        fun r hr => .pure hr
    · next u hu _ => exact .pure (hdecay (hup.2 rfl) hu)
    · next d _ hd => exact .pure (hdecay (hdown.2 rfl) hd)
    · exact .pure (by decide)
  refine .bind (.load fun tcp htcp => .bind (hquic.mono fun quic hquic => ?_))
  have hvalid : (quicValid up).Safe (WithinBase up) fun _ => True :=
    safe_of_reads (safe_quicValid up)
      (.bind .load fun uplinkLast => .ite trivial (.bind .load fun _ => trivial))
  refine .bind (.load fun tcpValid _ => .seq hvalid fun quicValid => ?_)
  refine .bind (.load fun qw hqw => .bind (.sub hqw.1 fun tw htw => ?_))
  split
  · have hqw' : qw.toNat ≤ (100 : UInt32).toNat := hqw.1
    have hw : tw.toNat + qw.toNat = (100 : UInt32).toNat := by omega
    exact safe_blend 100 (by decide) hw (by decide) (hle (htcp.2 rfl)) hquic fun r hr => .pure hr
  · exact .pure hquic
  · exact .pure (hle (htcp.2 rfl))
  · exact .pure (by decide)

/-- A call of `score_at` for the upstream returns at most the base score. -/
def Call.BasePost (up : Fin n) : Call n → Outcome → Prop
  | scoreAt other _, o => other = up → ∃ r : UInt32, o = .score r ∧ r ≤ defaultScore
  | _, _ => True

end Calls

section Body

variable {ups : List Upstream} {up : Fin ups.length}

/-- Every call but a report for the upstream keeps the limits, and reads at most the base score. -/
theorem safeWhile_body (hups : ∀ up ∈ ups, up.Configured) {k : Call ups.length}
    (hk : ¬k.Reports up) :
    (k.body ups).SafeWhile (WithinBase up) (k.cond up) (k.BasePost up) := by
  cases k with
  | setQuicWeight other w =>
    have hw : WithinBase up (u32 other .quicWeight) (min w 100) := ⟨toNat_min_le w 100, trivial⟩
    exact .seq (Safe.store hw trivial).safeWhile fun _ => .pure trivial
  | setQuicStaleSecs other secs =>
    have hsecs : WithinBase up (u64 other .quicStaleSecs) (max secs 1) :=
      ⟨le_toNat_max secs 1, trivial⟩
    exact .seq (Safe.store hsecs trivial).safeWhile fun _ => .pure trivial
  | runScoreTask other mode ticks =>
    exact .seq (.forM fun infos _ => safeWhile_scoreTick infos) fun _ => .pure trivial
  | updateUplinkScore other raw =>
    have hsafe : (Score.updateUplinkScore other raw).Safe InRange fun _ => True :=
      safe_updateLinkScore other raw rfl nofun
    exact .seq (safe_of_confined hsafe (confined_updateLinkScore other raw _ _) hk).safeWhile
      fun _ => .pure trivial
  | updateDownlinkScore other raw =>
    have hsafe : (Score.updateDownlinkScore other raw).Safe InRange fun _ => True :=
      safe_updateLinkScore other raw rfl nofun
    exact .seq (safe_of_confined hsafe (confined_updateLinkScore other raw _ _) hk).safeWhile
      fun _ => .pure trivial
  | setProbeQuality other q link =>
    exact .seq (safe_of_confined (safe_setProbeQuality other q link)
      (confined_setProbeQuality other q link) hk).safeWhile fun _ => .pure trivial
  | penalize other => exact .seq (safe_penalize_within other).safeWhile fun _ => .pure trivial
  | runHealthCheckTask threshold rounds =>
    refine .seq (.forM fun alive _ => .forM fun other _ => ?_) fun _ => .pure trivial
    exact safeWhile_recordHealth threshold (alive other)
  | runRelativeScoreTask staleSecs ticks =>
    exact .seq (safeWhile_relativeTicks staleSecs ticks 0 0) fun _ => .pure trivial
  | scoreAt other now =>
    by_cases hother : other = up
    · subst hother
      refine .bind ((safe_scoreAt_base other now).mono fun r hr => .pure fun _ => ?_).safeWhile
      exact ⟨r, rfl, UInt32.le_iff_toNat_le.mpr hr⟩
    · exact .seq (safe_of_reads ((safe_scoreAt other now).mono fun _ _ => trivial)
        (reads_scoreAt other now)).safeWhile fun _ => .pure fun h => absurd h hother
  | effectiveScoreAt other now =>
    obtain ⟨g, hg, -⟩ := (hups _ (ups.get_mem other)).gain
    have hsafe := (safe_effectiveScoreAt g other now).mono fun _ _ => trivial
    rw [← hg] at hsafe
    exact .seq (safe_of_reads hsafe
      (.bind (reads_scoreAt other now) fun _ => trivial)).safeWhile fun _ => .pure trivial

/-- A call that has not begun is harmless, unless it is a report for the upstream. -/
theorem harmless_body (hups : ∀ up ∈ ups, up.Configured) {k : Call ups.length}
    (hk : ¬k.Reports up) : Harmless up k (k.body ups) :=
  (safeWhile_body hups hk).mono fun _ _ => trivial

end Body

/-! ## Ticks that are not interrupted -/

theorem relativeScore_of_nonpos {value maxValue : ℚ} (h : ¬0 < maxValue) :
    relativeScore value maxValue = 0 :=
  if_pos (.inl (not_lt.mp h))

/-- A tick leaves the QUIC scores at most at the base score exactly when a fresh probe quality is
worth no more. -/
theorem quic_after_le_iff {old : UInt32} (hold : old ≤ defaultScore) (maxQEma : ℚ) (snap : Snap n) :
    (if 0 < maxQEma ∧ snap.hasQ then relativeScore snap.q maxQEma else old) ≤ defaultScore ↔
      (snap.hasQ = true → relativeScore snap.q maxQEma ≤ defaultScore) := by
  by_cases hq : snap.hasQ = true
  · by_cases hmax : 0 < maxQEma
    · rw [if_pos ⟨hmax, hq⟩]
      exact ⟨fun h _ => h, fun h => h hq⟩
    · rw [if_neg fun h => hmax h.1, relativeScore_of_nonpos hmax]
      exact ⟨fun _ _ => by decide, fun _ => hold⟩
  · rw [if_neg fun h => hq h.2]
    exact ⟨fun _ h => absurd h hq, fun _ => hold⟩

/-- A tick leaves the TCP score at most at the base score exactly when the score before and what a
fresh rate is worth add up to no more than 151. -/
theorem tcp_after_le_iff {old : UInt32} (hold : old ≤ defaultScore) (maxRateEma : ℚ)
    (snap : Snap n) :
    (if snap.hasRate ∧ 0 < maxRateEma then (old + relativeScore snap.rate maxRateEma) / 2
      else old) ≤ defaultScore ↔
      (snap.hasRate = true → old.toNat + (relativeScore snap.rate maxRateEma).toNat ≤ 151) := by
  have hold75 : old.toNat ≤ 75 := UInt32.le_iff_toNat_le.mp hold
  have hrel := toNat_relativeScore_le snap.rate maxRateEma
  by_cases hrate : snap.hasRate = true
  · by_cases hmax : 0 < maxRateEma
    · rw [if_pos ⟨hrate, hmax⟩, UInt32.le_iff_toNat_le, toNat_mean (by omega) hrel]
      change (old.toNat + (relativeScore snap.rate maxRateEma).toNat) / 2 ≤ 75 ↔ _
      exact ⟨fun h _ => by omega, fun h => by have := h hrate; omega⟩
    · rw [if_neg fun h => hmax h.2, relativeScore_of_nonpos hmax]
      refine ⟨fun _ _ => ?_, fun _ => hold⟩
      change old.toNat + 0 ≤ 151
      omega
  · rw [if_neg fun h => hrate h.1]
    exact ⟨fun _ h => absurd h hrate, fun _ => hold⟩

/-- A tick keeps all scores at most at the base score exactly when it finds no fresh measurement
above it. -/
theorem atMostBase_after_iff {s : Scores} (hs : s.AtMostBase) (maxRateEma maxQEma : ℚ)
    (snap : Snap n) : (s.after maxRateEma maxQEma snap).AtMostBase ↔
      (snap.hasQ = true → relativeScore snap.q maxQEma ≤ defaultScore) ∧
      (snap.hasRate = true → s.tcp.toNat + (relativeScore snap.rate maxRateEma).toNat ≤ 151) := by
  -- the TCP score counts already, so no seed is planted
  have hseed : ¬((!s.initialized) = true ∧ 0 < maxQEma) := by simp [hs.initialized]
  have htcp : (s.after maxRateEma maxQEma snap).tcp =
      if snap.hasRate ∧ 0 < maxRateEma then (s.tcp + relativeScore snap.rate maxRateEma) / 2
      else s.tcp := by
    simp only [Scores.after, if_neg hseed]
  have hinit : (s.after maxRateEma maxQEma snap).initialized = true := by
    simp only [Scores.after, hs.initialized, ite_self]
  rw [← quic_after_le_iff hs.uplink, ← tcp_after_le_iff hs.tcp, ← htcp]
  exact ⟨fun h => ⟨h.uplink, h.tcp⟩, fun h => ⟨h.2, hinit, h.1,
    (quic_after_le_iff hs.downlink maxQEma snap).mpr ((quic_after_le_iff hs.uplink _ _).mp h.1)⟩⟩

/-- Let a relative tick on a penalized upstream not be interrupted by other calls. It keeps the
scores at most at the base score exactly if it finds no fresh measurement that is worth more. -/
theorem relativeTick_keeps_iff (hmem : ∀ c, WithinBase up c (mem c)) (now staleSecs : UInt64)
    (maxRateEma maxQEma : ℚ) :
    ∃ emas mem', (relativeTick staleSecs maxRateEma maxQEma).exec now mem = some (emas, mem') ∧
      ((scores mem' up).AtMostBase ↔
        ((snapOf mem now staleSecs up).hasQ = true →
          relativeScore (snapOf mem now staleSecs up).q emas.2 ≤ defaultScore) ∧
        ((snapOf mem now staleSecs up).hasRate = true →
          (scores mem up).tcp.toNat +
            (relativeScore (snapOf mem now staleSecs up).rate emas.1).toNat ≤ 151)) := by
  obtain ⟨mem', hexec, hscores, -⟩ := exec_relativeTick mem now staleSecs maxRateEma maxQEma
    fun other => (hmem (u32 other .tcpScore)).1
  refine ⟨_, mem', hexec, ?_⟩
  rw [hscores up]
  exact atMostBase_after_iff (atMostBase_of_within hmem) _ _ _

/-! ## Runs after a penalty -/

section Runs

variable {ups : List Upstream} {s t u : Calls ups} {up : Fin ups.length} {now x : UInt64}

/-- What a call made after the first `m` calls returns. -/
def laterPost (up : Fin n) (m i : ℕ) (k : Call n) (o : Outcome) : Prop :=
  m ≤ i → k.BasePost up o

/-- The last write of a penalty. -/
theorem downlink_of_endsPenalty {i : ℕ} {k : Call ups.length} {p : ScoreM ups.length Outcome}
    (hi : s.threads[i]? = some (k, p)) (hend : k.EndsPenalty up now p)
    (hstep : Calls.step ups s (.advance i x) = some t) :
    t.mem (u64 up .quicDownlinkLastUpdateSecs) = now := by
  obtain ⟨rest, rfl⟩ : ∃ rest, p = store (u64 up .quicDownlinkLastUpdateSecs) now >>= rest := by
    cases k with
    | penalize other => exact hend
    | runHealthCheckTask threshold rounds => exact hend
    | _ => exact hend.elim
  simp only [Calls.step, Pool.step, hi] at hstep
  obtain rfl := Option.some.inj hstep
  exact Function.update_self ..

/-- The limits hold right after the penalty. -/
theorem JustPenalized.inv (h : JustPenalized up now t) (hrange : ∀ c, InRange c (t.mem c)) :
    t.InvWhile (WithinBase up) (Call.cond up) (laterPost up t.threads.length) where
  mem c := ⟨hrange c, atBase_of_scores (h.scores ▸ Scores.atMostBase_base) c⟩
  threads i k p hi := (h.harmless i k p hi).mono fun _ _ hlater =>
    absurd (List.getElem?_eq_some_iff.mp hi).1 (not_lt.mpr hlater)

/-- A step that brings no evidence, and keeps to the base score if it is one of a relative tick, is
allowed. -/
theorem allowed_of_noEvidence (hups : ∀ up ∈ ups, up.Configured) {m : ℕ}
    {a : Pool.Action UInt64 (Call ups.length)} (hno : NoEvidence up s a)
    (hkeeps : KeepsBase up s a) :
    s.Allowed (Call.body ups) (WithinBase up) (Call.cond up) (laterPost up m) a := by
  cases a with
  | call k => exact (safeWhile_body hups hno).mono fun _ hpost _ => hpost
  | advance i x => exact fun k p hi => ⟨hno k p hi, hkeeps k p hi⟩

/-- The state after a penalty that no other call interrupts. -/
def afterPenalty (s : Calls ups) (up : Fin ups.length) (now : UInt64) : Calls ups where
  mem := ((penalize up).exec now s.mem).elim s.mem Prod.snd
  threads := s.threads ++ [(.penalize up, .ret .unit)]

/-- A penalty may be made in every state without an interruption. -/
theorem exists_endsPenalty (s : Calls ups) (up : Fin ups.length) (now : UInt64) :
    ∃ (s' : Calls ups) (i : ℕ) (k : Call ups.length) (p : ScoreM ups.length Outcome),
      Reachable (Calls.step ups) s s' ∧ s'.threads[i]? = some (k, p) ∧ k.EndsPenalty up now p ∧
        Calls.step ups s' (.advance i now) = some (afterPenalty s up now) := by
  have hcall : Reachable (Calls.step ups) s
      { s with threads := s.threads ++ [(.penalize up, Call.body ups (.penalize up))] } :=
    Steps.refl.tail (a := .call (.penalize up)) trivial rfl
  -- the four scores, the reading of the clock and the first timestamp
  have htwo := Pool.reachable_advance_last (Pool.reachable_advance_last hcall now rfl) now rfl
  have hfour := Pool.reachable_advance_last (Pool.reachable_advance_last htwo now rfl) now rfl
  have hsix := Pool.reachable_advance_last (Pool.reachable_advance_last hfour now rfl) now rfl
  exact ⟨_, s.threads.length, .penalize up, _, hsix, List.getElem?_concat_length, ⟨_, rfl⟩,
    Pool.step_advance_last rfl⟩

theorem justPenalized_afterPenalty (h : ∀ th ∈ s.threads, Harmless up th.1 th.2) :
    JustPenalized up now (afterPenalty s up now) := by
  obtain ⟨mem, hexec, hscores, hup, -⟩ := exec_penalize s.mem up now
  have hmem : (afterPenalty s up now).mem = mem := by
    rw [afterPenalty, hexec]
    rfl
  refine ⟨hmem ▸ hscores, ?_, fun i k p hi => ?_⟩
  · rw [hmem, hup]
    exact UInt64.le_refl _
  · rcases List.mem_append.mp (List.mem_of_getElem? hi) with hold | hnew
    · exact h _ hold
    · obtain ⟨rfl, rfl⟩ := Prod.mk.inj (List.mem_singleton.mp hnew)
      exact trivial

/-- The cell that a program comes to next. -/
def nextCell : ScoreM n α → Option (Cell n)
  | .atomic c _ _ => some c
  | _ => none

/-- Away from the scores of the upstream a relative tick keeps to the base score. -/
theorem tickKeepsBase_of_nextCell {p : ScoreM n α} {up : Fin n} {mem : ∀ c : Cell n, c.Val}
    (hquic : nextCell p ≠ some (u32 up .quicUplinkScore))
    (htcp : nextCell p ≠ some (u32 up .tcpScore)) : TickKeepsBase up mem p where
  q maxQEma snap rest hp hup hpos hq := by
    refine absurd ?_ hquic
    rw [hp, writeRelativeQuic, if_pos ⟨hpos, hq⟩, ← hup]
    rfl
  rate maxRateEma maxQEma snap rest hp hup hpos hrate := by
    refine absurd ?_ htcp
    rw [hp, writeRelativeTcp, if_pos ⟨hrate, hpos⟩, ← hup]
    rfl

/-- The step is one of a relative tick whose next access is to none of the cells. -/
def relativeAway (cells : List (Cell ups.length)) (s : Calls ups) :
    Pool.Action UInt64 (Call ups.length) → Bool
  | .call (.runRelativeScoreTask _ _) => true
  | .call _ => false
  | .advance i _ =>
    match s.threads[i]? with
    | some (.runRelativeScoreTask _ _, p) => cells.all fun c => nextCell p != some c
    | _ => false

theorem noEvidence_of_relativeAway {cells : List (Cell ups.length)}
    {a : Pool.Action UInt64 (Call ups.length)} (h : relativeAway cells s a = true) :
    NoEvidence up s a := by
  cases a with
  | call k =>
    cases k with
    | runRelativeScoreTask staleSecs ticks => exact id
    | _ => cases h
  | advance i x =>
    intro k p hi
    simp only [relativeAway, hi] at h
    cases k with
    | runRelativeScoreTask staleSecs ticks => exact id
    | _ => cases h

theorem keepsBase_of_relativeAway {a : Pool.Action UInt64 (Call ups.length)}
    (h : relativeAway [u32 up .quicUplinkScore, u32 up .tcpScore] s a = true) :
    KeepsBase up s a := by
  cases a with
  | call k => trivial
  | advance i x =>
    intro k p hi
    simp only [relativeAway, hi] at h
    cases k with
    | runRelativeScoreTask staleSecs ticks =>
      simp only [List.all_cons, List.all_nil, Bool.and_true, Bool.and_eq_true, bne_iff_ne] at h
      exact tickKeepsBase_of_nextCell h.1 h.2
    | _ => trivial

end Runs

/-- The state in which the relative task has been called, after the calls of a state. -/
def withRelativeTask {ups : List Upstream} (s : Calls ups) (staleSecs : UInt64) (ticks : ℕ) :
    Calls ups :=
  let call := .runRelativeScoreTask staleSecs ticks
  { s with threads := s.threads ++ [(call, Call.body ups call)] }

/-- Two ticks of `run_score_task` at the times 10 and 20, with 10 MiB between them. -/
def sampled {n : ℕ} (up : Fin n) : List (Pool.Action UInt64 (Call n)) :=
  .call (.runScoreTask up true [[some ⟨0, 0⟩], [some ⟨10485760, 0⟩]]) ::
    (List.replicate 5 (.advance 0 10) ++ List.replicate 8 (.advance 0 20))

end Score

end XtpRs.Upstream
