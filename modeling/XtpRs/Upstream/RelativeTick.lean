import XtpRs.Lib.Sequential
import XtpRs.Upstream.ScoreRange

/-!
# One tick of the relative scores

A tick of `run_relative_score_task` that no other call interrupts. It reads the measurements of all
upstreams, moves its two averages of the greatest fresh ones, and then writes the scores of every
upstream from its own measurements, its own scores before and the averages.

## Main definitions

* `Score.Tasks`: the atomics and the averages.
* `Score.snapOf`, `Score.maxRate`, `Score.maxQ`: the fresh measurements, and the greatest of them.
* `Score.Scores`, `Score.Scores.after`: the scores of an upstream, and those that a tick leaves.

## Main results

* `Score.exec_relativeTick`: what a tick does.
-/

namespace XtpRs.Upstream

open Lib

namespace Score

variable {n : ℕ}

open Cell

/-- The upstream that an atomic belongs to. -/
def Cell.owner : Cell n → Fin n
  | .u32 up _ => up
  | .u64 up _ => up
  | .f64 up _ => up
  | .flag up _ => up

/-- The atomics of the upstreams and the two averages of `run_relative_score_task`. -/
structure Tasks (n : ℕ) where
  mem : ∀ c : Cell n, c.Val
  maxRateEma : ℚ := 0
  maxQEma : ℚ := 0

/-- The upstreams of a new set, before the first tick. -/
def Tasks.start (ups : List Upstream) : Tasks ups.length where
  mem := initial ups

/-- The scores of an upstream that a tick may write. -/
@[ext]
structure Scores where
  tcp : UInt32
  initialized : Bool
  uplink : UInt32
  downlink : UInt32
  deriving DecidableEq, Repr

/-- The scores of an upstream. -/
def scores (mem : ∀ c : Cell n, c.Val) (up : Fin n) : Scores where
  tcp := mem (u32 up .tcpScore)
  initialized := mem (flag up .tcpScoreInitialized)
  uplink := mem (u32 up .quicUplinkScore)
  downlink := mem (u32 up .quicDownlinkScore)

/-- The atomics that hold the scores of an upstream. -/
def scoreCells (up : Fin n) : List (Cell n) :=
  [u32 up .tcpScore, flag up .tcpScoreInitialized, u32 up .quicUplinkScore,
    u32 up .quicDownlinkScore]

/-- The snapshot of an upstream. -/
def snapOf (mem : ∀ c : Cell n, c.Val) (now staleSecs : UInt64) (up : Fin n) : Snap n :=
  let rateLast : UInt64 := mem (u64 up .throughputUpdatedSecs)
  let hasRate := decide (0 < rateLast ∧ saturatingSub now rateLast < staleSecs)
  let qLast : UInt64 := mem (u64 up .probeQualityUpdatedSecs)
  let hasQ := decide (0 < qLast ∧ saturatingSub now qLast < staleSecs)
  { up
    rate := if hasRate then mem (f64 up .throughputRateMibs) else (0 : ℚ)
    hasRate
    q := if hasQ then mem (f64 up .probeQuality) else (0 : ℚ)
    hasQ }

/-- The greatest fresh rate. -/
def maxRate (snaps : List (Snap n)) : ℚ :=
  snaps.foldl (fun m s => if s.hasRate then max m s.rate else m) 0

/-- The greatest fresh probe quality. -/
def maxQ (snaps : List (Snap n)) : ℚ :=
  snaps.foldl (fun m s => if s.hasQ then max m s.q else m) 0

/-- The scores of an upstream after a tick with the averages `maxRateEma` and `maxQEma`. -/
def Scores.after (maxRateEma maxQEma : ℚ) (snap : Snap n) (s : Scores) : Scores where
  tcp :=
    if snap.hasRate ∧ 0 < maxRateEma then (s.tcp + relativeScore snap.rate maxRateEma) / 2
    else if !s.initialized ∧ 0 < maxQEma then
      if snap.hasQ then relativeScore snap.q maxQEma else relativeScore (maxQEma / 2) maxQEma
    else s.tcp
  initialized :=
    if snap.hasRate ∧ 0 < maxRateEma then true
    else if !s.initialized ∧ 0 < maxQEma then true
    else s.initialized
  uplink := if 0 < maxQEma ∧ snap.hasQ then relativeScore snap.q maxQEma else s.uplink
  downlink := if 0 < maxQEma ∧ snap.hasQ then relativeScore snap.q maxQEma else s.downlink

variable {mem : ∀ c : Cell n, c.Val} {x : UInt64}

/-! ## The reads -/

theorem exec_loadIf (cond : Bool) (c : Cell n) (default : c.Val) :
    (loadIf cond c default).exec x mem = some (if cond then mem c else default, mem) := by
  cases cond with
  | true => exact Prog.exec_load
  | false => rfl

theorem exec_snap (now staleSecs : UInt64) (up : Fin n) :
    (snap now staleSecs up).exec x mem = some (snapOf mem now staleSecs up, mem) := by
  rw [snap, Prog.exec_bind, Prog.exec_load, Option.bind_some, Prog.exec_bind, exec_loadIf,
    Option.bind_some, Prog.exec_bind, Prog.exec_load, Option.bind_some, Prog.exec_bind, exec_loadIf,
    Option.bind_some, Prog.exec_pure]
  rfl

theorem exec_snaps (now staleSecs : UInt64) (ups : List (Fin n)) :
    (ups.mapM' (snap now staleSecs)).exec x mem =
      some (ups.map (snapOf mem now staleSecs), mem) := by
  induction ups with
  | nil => rfl
  | cons up ups ih =>
    rw [List.mapM'_cons]
    simp only [Prog.exec_bind, exec_snap, Option.bind_some, ih, Prog.exec_pure, List.map_cons]

/-! ## The writes -/

/-- What a tick does to the QUIC scores of one upstream. -/
theorem exec_writeRelativeQuic (mem : ∀ c : Cell n, c.Val) (maxRateEma maxQEma : ℚ)
    (snap : Snap n) :
    ∃ mem', (writeRelativeQuic maxQEma snap).exec x mem = some ((), mem') ∧
      mem' (u32 snap.up .quicUplinkScore) =
        ((scores mem snap.up).after maxRateEma maxQEma snap).uplink ∧
      mem' (u32 snap.up .quicDownlinkScore) =
        ((scores mem snap.up).after maxRateEma maxQEma snap).downlink ∧
      ∀ c, c ≠ u32 snap.up .quicUplinkScore → c ≠ u32 snap.up .quicDownlinkScore →
        mem' c = mem c := by
  by_cases h : 0 < maxQEma ∧ snap.hasQ = true
  · refine ⟨_, by rw [writeRelativeQuic, if_pos h]; rfl, ?_, ?_, fun c hup hdown => ?_⟩
    · simp [Scores.after, h]
    · simp [Scores.after, h]
    · rw [Function.update_of_ne hdown, Function.update_of_ne hup]
  · refine ⟨mem, by rw [writeRelativeQuic, if_neg h]; rfl, ?_, ?_, fun _ _ _ => rfl⟩
    · simp only [Scores.after, if_neg h]
      rfl
    · simp only [Scores.after, if_neg h]
      rfl

/-- A TCP score that a tick gives to an upstream. -/
def withTcp (mem : ∀ c : Cell n, c.Val) (up : Fin n) (v : UInt32) : ∀ c : Cell n, c.Val :=
  Function.update (Function.update mem (u32 up .tcpScore) v) (flag up .tcpScoreInitialized) true

/-- What a tick does to the TCP score of one upstream. -/
theorem exec_writeRelativeTcp (mem : ∀ c : Cell n, c.Val) (maxRateEma maxQEma : ℚ) (snap : Snap n)
    (htcp : (scores mem snap.up).tcp.toNat ≤ 1000) :
    ∃ mem', (writeRelativeTcp maxRateEma maxQEma snap).exec x mem = some ((), mem') ∧
      mem' (u32 snap.up .tcpScore) = ((scores mem snap.up).after maxRateEma maxQEma snap).tcp ∧
      mem' (flag snap.up .tcpScoreInitialized) =
        ((scores mem snap.up).after maxRateEma maxQEma snap).initialized ∧
      ∀ c, c ≠ u32 snap.up .tcpScore → c ≠ flag snap.up .tcpScoreInitialized → mem' c = mem c := by
  have hwith (v : UInt32) (c : Cell n) (hscore : c ≠ u32 snap.up .tcpScore)
      (hflag : c ≠ flag snap.up .tcpScoreInitialized) : withTcp mem snap.up v c = mem c := by
    rw [withTcp, Function.update_of_ne hflag, Function.update_of_ne hscore]
  by_cases h : snap.hasRate = true ∧ 0 < maxRateEma
  · have hlt : (scores mem snap.up).tcp.toNat + (relativeScore snap.rate maxRateEma).toNat <
        UInt32.size := by
      have hrel := toNat_relativeScore_le snap.rate maxRateEma
      have hsize : UInt32.size = 2 ^ 32 := rfl
      omega
    refine ⟨withTcp mem snap.up
      (((scores mem snap.up).tcp + relativeScore snap.rate maxRateEma) / 2), ?_, ?_, ?_, hwith _⟩
    · rw [writeRelativeTcp, if_pos h, Prog.exec_bind, Prog.exec_load, Option.bind_some,
        Prog.exec_bind]
      exact congrArg (Option.bind · _) (Prog.exec_add hlt)
    · simp [withTcp, Scores.after, h]
    · simp [withTcp, Scores.after, h]
  · by_cases hseed : (!(scores mem snap.up).initialized) = true ∧ 0 < maxQEma
    · refine ⟨withTcp mem snap.up (if snap.hasQ then relativeScore snap.q maxQEma
        else relativeScore (maxQEma / 2) maxQEma), ?_, ?_, ?_, hwith _⟩
      · rw [writeRelativeTcp, if_neg h, Prog.exec_bind, Prog.exec_load, Option.bind_some]
        exact congrArg (Prog.exec x · mem) (if_pos hseed)
      · simp only [Scores.after, if_neg h, if_pos hseed]
        simp [withTcp]
      · simp only [Scores.after, if_neg h, if_pos hseed]
        simp [withTcp]
    · refine ⟨mem, ?_, ?_, ?_, fun _ _ _ => rfl⟩
      · rw [writeRelativeTcp, if_neg h, Prog.exec_bind, Prog.exec_load, Option.bind_some]
        exact congrArg (Prog.exec x · mem) (if_neg hseed)
      · simp only [Scores.after, if_neg h, if_neg hseed]
        rfl
      · simp only [Scores.after, if_neg h, if_neg hseed]
        rfl

/-- What a tick does to one upstream. -/
theorem exec_writeRelative (mem : ∀ c : Cell n, c.Val) (maxRateEma maxQEma : ℚ) (snap : Snap n)
    (htcp : (scores mem snap.up).tcp.toNat ≤ 1000) :
    ∃ mem', (do
        writeRelativeQuic maxQEma snap
        writeRelativeTcp maxRateEma maxQEma snap : ScoreM n Unit).exec x mem = some ((), mem') ∧
      scores mem' snap.up = (scores mem snap.up).after maxRateEma maxQEma snap ∧
      ∀ c ∉ scoreCells snap.up, mem' c = mem c := by
  obtain ⟨mem₁, hquic, hup, hdown, hrest₁⟩ :=
    exec_writeRelativeQuic (x := x) mem maxRateEma maxQEma snap
  have hscores : scores mem₁ snap.up = { scores mem snap.up with
      uplink := ((scores mem snap.up).after maxRateEma maxQEma snap).uplink
      downlink := ((scores mem snap.up).after maxRateEma maxQEma snap).downlink } :=
    Scores.ext (hrest₁ _ (by simp) (by simp)) (hrest₁ _ nofun nofun) hup hdown
  obtain ⟨mem₂, hexec, htcp₂, hflag₂, hrest₂⟩ :=
    exec_writeRelativeTcp (x := x) mem₁ maxRateEma maxQEma snap (by rw [hscores]; exact htcp)
  rw [hscores] at htcp₂ hflag₂
  refine ⟨mem₂, ?_, Scores.ext htcp₂ hflag₂ ?_ ?_, fun c hc => ?_⟩
  · rw [Prog.exec_bind, hquic]
    exact hexec
  · exact (hrest₂ (u32 snap.up .quicUplinkScore) (by simp) nofun).trans hup
  · exact (hrest₂ (u32 snap.up .quicDownlinkScore) (by simp) nofun).trans hdown
  · simp only [scoreCells, List.mem_cons, List.not_mem_nil, or_false, not_or] at hc
    obtain ⟨htcp, hflag, hup, hdown⟩ := hc
    rw [hrest₂ c htcp hflag, hrest₁ c hup hdown]

theorem scores_congr {mem mem' : ∀ c : Cell n, c.Val} {up : Fin n}
    (h : ∀ c ∈ scoreCells up, mem' c = mem c) : scores mem' up = scores mem up :=
  Scores.ext (h _ (by simp [scoreCells])) (h _ (by simp [scoreCells]))
    (h _ (by simp [scoreCells])) (h _ (by simp [scoreCells]))

theorem owner_of_mem_scoreCells {up : Fin n} {c : Cell n} (hc : c ∈ scoreCells up) :
    c.owner = up := by
  simp only [scoreCells, List.mem_cons, List.not_mem_nil, or_false] at hc
  rcases hc with rfl | rfl | rfl | rfl <;> rfl

/-- The scores of two upstreams are held by different atomics. -/
theorem disjoint_scoreCells {up other : Fin n} (h : up ≠ other) {c : Cell n}
    (hc : c ∈ scoreCells up) : c ∉ scoreCells other := fun hc' =>
  h ((owner_of_mem_scoreCells hc).symm.trans (owner_of_mem_scoreCells hc'))

/-- What a tick does to the upstreams of a list, one after the other. -/
theorem exec_writes (maxRateEma maxQEma : ℚ) {snapFor : Fin n → Snap n}
    (hsnap : ∀ up, (snapFor up).up = up) {ups : List (Fin n)} (hups : ups.Nodup)
    (htcp : ∀ up ∈ ups, (scores mem up).tcp.toNat ≤ 1000) :
    ∃ mem', ((ups.map snapFor).forM fun snap => do
        writeRelativeQuic maxQEma snap
        writeRelativeTcp maxRateEma maxQEma snap : ScoreM n Unit).exec x mem = some ((), mem') ∧
      (∀ up ∈ ups, scores mem' up = (scores mem up).after maxRateEma maxQEma (snapFor up)) ∧
      (∀ up ∉ ups, scores mem' up = scores mem up) ∧
      ∀ c, (∀ up, c ∉ scoreCells up) → mem' c = mem c := by
  induction ups generalizing mem with
  | nil => exact ⟨mem, rfl, nofun, fun _ _ => rfl, fun _ _ => rfl⟩
  | cons up ups ih =>
    obtain ⟨hnot, hups⟩ := List.nodup_cons.mp hups
    obtain ⟨mem₁, hexec₁, hscores₁, hrest₁⟩ := exec_writeRelative (x := x) mem maxRateEma maxQEma
      (snapFor up) (by rw [hsnap]; exact htcp up List.mem_cons_self)
    rw [hsnap] at hscores₁ hrest₁
    -- the scores of the other upstreams are as before
    have hother : ∀ other, other ≠ up → scores mem₁ other = scores mem other := fun other hne =>
      scores_congr fun c hc => hrest₁ c (disjoint_scoreCells hne hc)
    have hne : ∀ other ∈ ups, other ≠ up := fun other hmem heq => hnot (heq ▸ hmem)
    have htcp₁ : ∀ other ∈ ups, (scores mem₁ other).tcp.toNat ≤ 1000 := fun other hmem => by
      rw [hother other (hne other hmem)]
      exact htcp other (List.mem_cons_of_mem up hmem)
    obtain ⟨mem₂, hexec₂, hscores₂, hkept₂, hrest₂⟩ := ih hups htcp₁
    refine ⟨mem₂, ?_, fun other hmem => ?_, fun other hmem => ?_, fun c hc => ?_⟩
    · rw [List.map_cons, Prog.exec_forM_cons, hexec₁]
      exact hexec₂
    · rcases List.mem_cons.mp hmem with rfl | hmem
      · rw [hkept₂ other hnot, hscores₁]
      · rw [hscores₂ other hmem, hother other (hne other hmem)]
    · have hup : other ≠ up := fun heq => hmem (heq ▸ List.mem_cons_self)
      rw [hkept₂ other fun h => hmem (List.mem_cons_of_mem up h), hother other hup]
    · rw [hrest₂ c hc, hrest₁ c (hc up)]

/-- **What a tick does.** It moves the averages by the greatest fresh measurements of all upstreams,
writes the scores of each of them from its own measurements, and changes nothing else. -/
theorem exec_relativeTick (mem : ∀ c : Cell n, c.Val) (now staleSecs : UInt64)
    (maxRateEma maxQEma : ℚ) (htcp : ∀ up, (scores mem up).tcp.toNat ≤ 1000) :
    let snaps := (List.finRange n).map (snapOf mem now staleSecs)
    let emas := (emaOfMax maxRateEma (maxRate snaps), emaOfMax maxQEma (maxQ snaps))
    ∃ mem', (relativeTick staleSecs maxRateEma maxQEma).exec now mem = some (emas, mem') ∧
      (∀ up, scores mem' up =
        (scores mem up).after emas.1 emas.2 (snapOf mem now staleSecs up)) ∧
      ∀ c, (∀ up, c ∉ scoreCells up) → mem' c = mem c := by
  intro snaps emas
  obtain ⟨mem', hexec, hscores, -, hrest⟩ := exec_writes (x := now) emas.1 emas.2
    (fun up : Fin n => (rfl : (snapOf mem now staleSecs up).up = up)) (List.nodup_finRange n)
    fun up _ => htcp up
  refine ⟨mem', ?_, fun up => hscores up (List.mem_finRange up), hrest⟩
  rw [relativeTick, Prog.exec_bind]
  change ((List.finRange n).mapM' (snap now staleSecs) >>= _ : ScoreM n (ℚ × ℚ)).exec now mem = _
  rw [Prog.exec_bind, exec_snaps, Option.bind_some, Prog.exec_bind]
  exact congrArg (Option.bind · _) hexec

end Score

end XtpRs.Upstream
