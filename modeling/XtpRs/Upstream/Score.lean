import XtpRs.Lib.Atomic
import XtpRs.Upstream.Set

/-!
# Scores of an upstream

The scores of `src/upstream.rs` and the tasks that write them. The fields of an `Upstream` that
change are atomics, shared without a lock between the tasks and the connections. Each function is a
program over them, one operation for every atomic access of the source, so calls may be interleaved
at every access.

An `f64` is the exact rational; `as u32` and `as u64` truncate and saturate. The additions and
products of scores, which are `u32`, are checked. Sums of `u64` byte counters and the count of
failures wrap, as in a release build. `now_secs` is read from outside and may be anything, so the
clock may also go back. A task that loops is the program of its first ticks, for any number of them.

## Main definitions

* `calcThroughputScore`, `relativeScore`: a measurement as a score.
* `Score.Cell`: the atomics of the upstreams.
* `Score.scoreAt`, `Score.effectiveScoreAt`: the reads of a score.
* `Score.runScoreTask`, `Score.runRelativeScoreTask`, `Score.runHealthCheckTask`,
  `Score.updateLinkScore`, `Score.setProbeQuality`, `Score.penalize`: the writers.
* `Score.Call`: all calls, and `Score.initial`: the atomics of a new set.
-/

namespace XtpRs.Upstream

open Lib

/-- `DEFAULT_SCORE`. -/
def defaultScore : UInt32 := 75

/-- `MINIMAL_SCORE`. -/
def minimalScore : UInt32 := 10

/-- `a.saturating_sub(b)`. -/
def saturatingSub (a b : UInt64) : UInt64 :=
  if b ≤ a then a - b else 0

/-- `q as u32`. -/
def truncU32 (q : ℚ) : UInt32 := .ofNat (min q.floor.toNat (UInt32.size - 1))

/-- `q as u64`. -/
def truncU64 (q : ℚ) : UInt64 := .ofNat (min q.floor.toNat (UInt64.size - 1))

/-- `q.clamp(lo, hi)`. -/
def clamp (q lo hi : ℚ) : ℚ :=
  if q < lo then lo else if hi < q then hi else q

namespace F64

/-- `n as f64 * x`. -/
def scale (n : UInt32) : F64 → F64
  | nan => nan
  | infinite negative => if n = 0 then nan else infinite negative
  | finite value => finite (n.toNat * value)

/-- `x.clamp(lo, hi) as u64`; what is not a number stays so and becomes 0. -/
def clampU64 (lo hi : ℚ) : F64 → UInt64
  | nan => 0
  | infinite negative => truncU64 (if negative then lo else hi)
  | finite value => truncU64 (clamp value lo hi)

end F64

/-- `calc_throughput_score`, for a duration of `secs` seconds. -/
def calcThroughputScore (totalBytes : UInt64) (secs : ℚ) : Option UInt32 :=
  if totalBytes < 1024 * 16 then none
  else if secs ≤ 0 then none
  else
    let bps := totalBytes.toNat / secs
    let mibPerSec := bps / 1024 / 1024
    let score :=
      if 50 ≤ mibPerSec then 1000
      else if 10 ≤ mibPerSec then 800 + truncU32 ((mibPerSec - 10) / 40 * 200)
      else if 5 ≤ mibPerSec then 600 + truncU32 ((mibPerSec - 5) / 5 * 200)
      else if 1 ≤ mibPerSec then 300 + truncU32 ((mibPerSec - 1) / 4 * 300)
      else if 1 / 10 ≤ mibPerSec then 100 + truncU32 ((mibPerSec - 1 / 10) / (9 / 10) * 200)
      else truncU32 (mibPerSec / (1 / 10) * 100)
    some (min score 1000)

/-- `relative_score`. -/
def relativeScore (value maxValue : ℚ) : UInt32 :=
  if maxValue ≤ 0 ∨ value ≤ 0 then 0 else truncU32 (clamp (value / maxValue * 1000) 0 1000)

/-- What `get_tcp_info_ext_raw` returns of a connection. -/
structure TcpInfo where
  bytesReceived : UInt64
  bytesAcked : UInt64
  deriving DecidableEq, Repr

namespace Score

/-- The fields of type `AtomicU32`. -/
inductive U32Field
  | tcpScore
  | healthFailures
  | quicUplinkScore
  | quicDownlinkScore
  | quicWeight
  deriving DecidableEq, Repr

/-- The fields of type `AtomicU64` that hold a number. -/
inductive U64Field
  | lastTotalRecv
  | lastTotalSent
  | lastCheckSecs
  | quicUplinkLastUpdateSecs
  | quicDownlinkLastUpdateSecs
  | quicStaleSecs
  | throughputUpdatedSecs
  | probeQualityUpdatedSecs
  deriving DecidableEq, Repr

/-- The fields of type `AtomicU64` that hold the bits of an `f64`. -/
inductive F64Field
  | throughputRateMibs
  | probeQuality
  deriving DecidableEq, Repr

/-- The fields of type `AtomicBool`. -/
inductive BoolField
  | tcpScoreInitialized
  | tcpInfoInitialized
  deriving DecidableEq, Repr

/-- The atomics of `n` upstreams. -/
inductive Cell (n : ℕ)
  | u32 (up : Fin n) (field : U32Field)
  | u64 (up : Fin n) (field : U64Field)
  | f64 (up : Fin n) (field : F64Field)
  | flag (up : Fin n) (field : BoolField)
  deriving DecidableEq

variable {n : ℕ}

/-- What an atomic holds. -/
abbrev Cell.Val : Cell n → Type
  | u32 _ _ => UInt32
  | u64 _ _ => UInt64
  | f64 _ _ => ℚ
  | flag _ _ => Bool

/-- The programs over the atomics of `n` upstreams. What they take from outside are the readings of
the clock. -/
abbrev ScoreM (n : ℕ) : Type → Type := Prog (Cell.Val (n := n)) UInt64

open Prog Cell

/-- `now_secs`. -/
def nowSecs : ScoreM n UInt64 := ask

/-- `Upstream::set_quic_weight`. -/
def setQuicWeight (up : Fin n) (w : UInt32) : ScoreM n Unit :=
  store (u32 up .quicWeight) (min w 100)

/-- `Upstream::set_quic_stale_secs`. -/
def setQuicStaleSecs (up : Fin n) (secs : UInt64) : ScoreM n Unit :=
  store (u64 up .quicStaleSecs) (max secs 1)

/-- The branch of a tick of `run_score_task` for traffic of 16 KiB and more. -/
def recordThroughput (up : Fin n) (relativeMode : Bool) (now deltaBytes deltaSecs : UInt64) :
    ScoreM n Unit := do
  if relativeMode then
    let mibPerSec : ℚ := deltaBytes.toNat / 1024 / 1024 / deltaSecs.toNat
    let oldRate : ℚ ← load (f64 up .throughputRateMibs)
    let newRate := if oldRate = 0 then mibPerSec else oldRate / 2 + mibPerSec / 2
    store (f64 up .throughputRateMibs) newRate
    store (u64 up .throughputUpdatedSecs) now
  else match calcThroughputScore deltaBytes deltaSecs.toNat with
    | some raw => do
      let old : UInt32 ← load (u32 up .tcpScore)
      let blended := (← add (← mul old 5) (← mul raw 5)) / 10
      store (u32 up .tcpScore) blended
      store (flag up .tcpScoreInitialized) true
    | none => pure ()

/-- One tick of `run_score_task`. The connections that are registered and alive have been asked for
their counters; `none` stands for one that could not be asked. -/
def scoreTick (up : Fin n) (relativeMode : Bool) (infos : List (Option TcpInfo)) :
    ScoreM n Unit := do
  let infos := infos.reduceOption
  let recv := (infos.map TcpInfo.bytesReceived).sum
  let sent := (infos.map TcpInfo.bytesAcked).sum
  if infos.length = 0 then pure ()
  else
    let now ← nowSecs
    let prevRecv : UInt64 ← swap (u64 up .lastTotalRecv) recv
    let prevSent : UInt64 ← swap (u64 up .lastTotalSent) sent
    let prevSecs : UInt64 ← swap (u64 up .lastCheckSecs) now
    let initialized : Bool ← swap (flag up .tcpInfoInitialized) true
    if initialized then
      let deltaRecv := saturatingSub recv prevRecv
      let deltaSent := saturatingSub sent prevSent
      let deltaBytes := deltaRecv + deltaSent
      let deltaSecs := max (saturatingSub now prevSecs) 1
      if 1024 * 16 ≤ deltaBytes then recordThroughput up relativeMode now deltaBytes deltaSecs
      else pure ()
    else pure ()

/-- `Upstream::run_score_task`, for as many ticks as there are lists of readings. -/
def runScoreTask (up : Fin n) (relativeMode : Bool) (ticks : List (List (Option TcpInfo))) :
    ScoreM n Unit :=
  ticks.forM (scoreTick up relativeMode)

/-- The closure `decay` of `quic_score_effective_at`. -/
def decay (now staleSecs : UInt64) (score : UInt32) (lastUpdateSecs : UInt64) : Option UInt32 :=
  if lastUpdateSecs = 0 then none
  else
    let elapsed := saturatingSub now lastUpdateSecs
    if staleSecs ≤ elapsed then some minimalScore
    else
      let factor : ℚ := (staleSecs - elapsed).toNat / staleSecs.toNat
      let decayed := truncU32 (score.toNat * factor)
      some (max decayed minimalScore)

/-- `Upstream::quic_score_effective_at`. -/
def quicScoreEffectiveAt (up : Fin n) (now : UInt64) : ScoreM n UInt32 := do
  let staleSecs : UInt64 ← load (u64 up .quicStaleSecs)
  let uplinkScore : UInt32 ← load (u32 up .quicUplinkScore)
  let uplinkLast : UInt64 ← load (u64 up .quicUplinkLastUpdateSecs)
  let downlinkScore : UInt32 ← load (u32 up .quicDownlinkScore)
  let downlinkLast : UInt64 ← load (u64 up .quicDownlinkLastUpdateSecs)
  match decay now staleSecs uplinkScore uplinkLast,
      decay now staleSecs downlinkScore downlinkLast with
  | some u, some d => return (← add u d) / 2
  | some u, none => return u
  | none, some d => return d
  | none, none => return defaultScore

/-- The value `quic_valid` of `score_at`. The second timestamp is read only when the first one is
zero. -/
def quicValid (up : Fin n) : ScoreM n Bool := do
  let uplinkLast : UInt64 ← load (u64 up .quicUplinkLastUpdateSecs)
  if 0 < uplinkLast then pure true
  else
    let downlinkLast : UInt64 ← load (u64 up .quicDownlinkLastUpdateSecs)
    pure (decide (0 < downlinkLast))

/-- `Upstream::score_at`. -/
def scoreAt (up : Fin n) (now : UInt64) : ScoreM n UInt32 := do
  let tcp : UInt32 ← load (u32 up .tcpScore)
  let quic ← quicScoreEffectiveAt up now
  let tcpValid : Bool ← load (flag up .tcpScoreInitialized)
  let quicValid ← quicValid up
  let qw : UInt32 ← load (u32 up .quicWeight)
  let tw ← sub 100 qw
  match tcpValid, quicValid with
  | true, true => return (← add (← mul tcp tw) (← mul quic qw)) / 100
  | false, true => return quic
  | true, false => return tcp
  | false, false => return defaultScore

/-- `Upstream::effective_score_at`. -/
def effectiveScoreAt (gain : F64) (up : Fin n) (now : UInt64) : ScoreM n UInt64 := do
  let rawScore ← scoreAt up now
  return (gain.scale rawScore).clampU64 1 10000000

/-- `Upstream::update_link_score`. -/
def updateLinkScore (up : Fin n) (raw : Option UInt32) (score : U32Field)
    (lastUpdate : U64Field) : ScoreM n Unit := do
  match raw with
  | none => pure ()
  | some raw =>
    let raw := min raw 1000
    let now ← nowSecs
    let last : UInt64 ← load (u64 up lastUpdate)
    if saturatingSub now last < 5 then pure ()
    else if ← compareExchange (u64 up lastUpdate) last now then
      let old : UInt32 ← load (u32 up score)
      let blended := (← add (← mul old 3) (← mul raw 7)) / 10
      store (u32 up score) blended
    else pure ()

/-- `Upstream::update_uplink_score`. -/
def updateUplinkScore (up : Fin n) (raw : Option UInt32) : ScoreM n Unit :=
  updateLinkScore up raw .quicUplinkScore .quicUplinkLastUpdateSecs

/-- `Upstream::update_downlink_score`. -/
def updateDownlinkScore (up : Fin n) (raw : Option UInt32) : ScoreM n Unit :=
  updateLinkScore up raw .quicDownlinkScore .quicDownlinkLastUpdateSecs

/-- The text `downlink`. -/
def downlink : Str := [0x64, 0x6f, 0x77, 0x6e, 0x6c, 0x69, 0x6e, 0x6b]

/-- `Upstream::set_probe_quality`. -/
def setProbeQuality (up : Fin n) (q : ℚ) (link : Option Str) : ScoreM n Unit := do
  store (f64 up .probeQuality) q
  let now ← nowSecs
  store (u64 up (if link = some downlink then .quicDownlinkLastUpdateSecs
    else .quicUplinkLastUpdateSecs)) now
  store (u64 up .probeQualityUpdatedSecs) now

/-- `Upstream::penalize`. -/
def penalize (up : Fin n) : ScoreM n Unit := do
  store (u32 up .tcpScore) defaultScore
  store (flag up .tcpScoreInitialized) true
  store (u32 up .quicUplinkScore) defaultScore
  store (u32 up .quicDownlinkScore) defaultScore
  let now ← nowSecs
  store (u64 up .quicUplinkLastUpdateSecs) now
  store (u64 up .quicDownlinkLastUpdateSecs) now

/-- What `run_health_check_task` does after the check of an upstream. -/
def recordHealth (failThreshold : UInt32) (up : Fin n) (alive : Bool) : ScoreM n Unit := do
  if alive then
    let failures : UInt32 ← swap (u32 up .healthFailures) 0
    if failThreshold ≤ failures then
      store (u32 up .tcpScore) 300
      store (flag up .tcpScoreInitialized) true
    else pure ()
  else
    let before : UInt32 ← fetchModify (u32 up .healthFailures) (· + 1)
    let f := before + 1
    if f = failThreshold then penalize up else pure ()

/-- `run_health_check_task`, for as many rounds as there are outcomes; a round says which upstreams
answered. -/
def runHealthCheckTask (failThreshold : UInt32) (rounds : List (Fin n → Bool)) : ScoreM n Unit :=
  rounds.forM fun alive => (List.finRange n).forM fun up => recordHealth failThreshold up (alive up)

/-- The snapshot `Snap` of `run_relative_score_task`. -/
structure Snap (n : ℕ) where
  up : Fin n
  rate : ℚ
  hasRate : Bool
  q : ℚ
  hasQ : Bool

/-- The value of an atomic if a condition holds, else a value that stands for it. -/
def loadIf (cond : Bool) (c : Cell n) (default : c.Val) : ScoreM n c.Val :=
  if cond then load c else pure default

/-- The snapshot of one upstream. -/
def snap (now staleSecs : UInt64) (up : Fin n) : ScoreM n (Snap n) := do
  let rateLast : UInt64 ← load (u64 up .throughputUpdatedSecs)
  let hasRate := decide (0 < rateLast ∧ saturatingSub now rateLast < staleSecs)
  let rate ← loadIf hasRate (f64 up .throughputRateMibs) 0
  let qLast : UInt64 ← load (u64 up .probeQualityUpdatedSecs)
  let hasQ := decide (0 < qLast ∧ saturatingSub now qLast < staleSecs)
  let q ← loadIf hasQ (f64 up .probeQuality) 0
  return { up, rate, hasRate, q, hasQ }

/-- The moving average of a maximum after a round with the maximum `m`. -/
def emaOfMax (ema m : ℚ) : ℚ :=
  if 0 < m then if ema = 0 then m else ema * (9 / 10) + m * (1 / 10) else ema

/-- What a tick of `run_relative_score_task` writes to the QUIC scores of one upstream. -/
def writeRelativeQuic (maxQEma : ℚ) (snap : Snap n) : ScoreM n Unit := do
  if 0 < maxQEma ∧ snap.hasQ then
    let relQuic := relativeScore snap.q maxQEma
    store (u32 snap.up .quicUplinkScore) relQuic
    store (u32 snap.up .quicDownlinkScore) relQuic
  else pure ()

/-- What a tick of `run_relative_score_task` writes to the TCP score of one upstream. -/
def writeRelativeTcp (maxRateEma maxQEma : ℚ) (snap : Snap n) : ScoreM n Unit := do
  if snap.hasRate ∧ 0 < maxRateEma then
    let relTcp := relativeScore snap.rate maxRateEma
    let old : UInt32 ← load (u32 snap.up .tcpScore)
    let blended := (← add old relTcp) / 2
    store (u32 snap.up .tcpScore) blended
    store (flag snap.up .tcpScoreInitialized) true
  else
    let initialized : Bool ← load (flag snap.up .tcpScoreInitialized)
    if !initialized ∧ 0 < maxQEma then
      let seed :=
        if snap.hasQ then relativeScore snap.q maxQEma else relativeScore (maxQEma / 2) maxQEma
      store (u32 snap.up .tcpScore) seed
      store (flag snap.up .tcpScoreInitialized) true
    else pure ()

/-- One tick of `run_relative_score_task`, from the moving averages before it to those after it. -/
def relativeTick (staleSecs : UInt64) (maxRateEma maxQEma : ℚ) : ScoreM n (ℚ × ℚ) := do
  let now ← nowSecs
  let snaps ← (List.finRange n).mapM' (snap now staleSecs)
  let maxRate := snaps.foldl (fun m s => if s.hasRate then max m s.rate else m) 0
  let maxQ := snaps.foldl (fun m s => if s.hasQ then max m s.q else m) 0
  let maxRateEma := emaOfMax maxRateEma maxRate
  let maxQEma := emaOfMax maxQEma maxQ
  snaps.forM fun snap => do
    writeRelativeQuic maxQEma snap
    writeRelativeTcp maxRateEma maxQEma snap
  return (maxRateEma, maxQEma)

/-- `run_relative_score_task` from given moving averages on, for a number of ticks. -/
def relativeTicks (staleSecs : UInt64) : ℕ → ℚ → ℚ → ScoreM n Unit
  | 0, _, _ => pure ()
  | ticks + 1, maxRateEma, maxQEma => do
    let emas ← relativeTick staleSecs maxRateEma maxQEma
    relativeTicks staleSecs ticks emas.1 emas.2

/-- `run_relative_score_task`, for a number of ticks. -/
def runRelativeScoreTask (staleSecs : UInt64) (ticks : ℕ) : ScoreM n Unit :=
  relativeTicks staleSecs ticks 0 0

/-- The calls that read or write the scores of `n` upstreams. -/
inductive Call (n : ℕ)
  | setQuicWeight (up : Fin n) (w : UInt32)
  | setQuicStaleSecs (up : Fin n) (secs : UInt64)
  | runScoreTask (up : Fin n) (relativeMode : Bool) (ticks : List (List (Option TcpInfo)))
  | updateUplinkScore (up : Fin n) (raw : Option UInt32)
  | updateDownlinkScore (up : Fin n) (raw : Option UInt32)
  | setProbeQuality (up : Fin n) (q : ℚ) (link : Option Str)
  | penalize (up : Fin n)
  | runHealthCheckTask (failThreshold : UInt32) (rounds : List (Fin n → Bool))
  | runRelativeScoreTask (staleSecs : UInt64) (ticks : ℕ)
  | scoreAt (up : Fin n) (now : UInt64)
  | effectiveScoreAt (up : Fin n) (now : UInt64)

/-- What a call returns. -/
inductive Outcome
  | unit
  | score (value : UInt32)
  | effective (value : UInt64)
  deriving DecidableEq

/-- The program of a call on the upstreams `ups`. -/
def Call.body (ups : List Upstream) : Call ups.length → ScoreM ups.length Outcome
  | setQuicWeight up w => do Score.setQuicWeight up w; return .unit
  | setQuicStaleSecs up secs => do Score.setQuicStaleSecs up secs; return .unit
  | runScoreTask up relativeMode ticks => do Score.runScoreTask up relativeMode ticks; return .unit
  | updateUplinkScore up raw => do Score.updateUplinkScore up raw; return .unit
  | updateDownlinkScore up raw => do Score.updateDownlinkScore up raw; return .unit
  | setProbeQuality up q link => do Score.setProbeQuality up q link; return .unit
  | penalize up => do Score.penalize up; return .unit
  | runHealthCheckTask failThreshold rounds => do
    Score.runHealthCheckTask failThreshold rounds
    return .unit
  | runRelativeScoreTask staleSecs ticks => do
    Score.runRelativeScoreTask staleSecs ticks
    return .unit
  | scoreAt up now => do return .score (← Score.scoreAt up now)
  | effectiveScoreAt up now => do
    return .effective (← Score.effectiveScoreAt (ups.get up).gain up now)

/-- The atomics of upstreams that `UpstreamSet::new` has just set up: those of `Upstream::new` with
the weight and the time limit of the set. -/
def initial (ups : List Upstream) : ∀ c : Cell ups.length, c.Val
  | .u32 _ .tcpScore => defaultScore
  | .u32 _ .healthFailures => 0
  | .u32 _ .quicUplinkScore => defaultScore
  | .u32 _ .quicDownlinkScore => defaultScore
  | .u32 up .quicWeight => (ups.get up).quicWeight
  | .u64 up .quicStaleSecs => (ups.get up).quicStaleSecs
  | .u64 _ _ => 0
  | .f64 _ _ => 0
  | .flag _ _ => false

/-- The upstreams of a set and the calls on them, of which none has been made. -/
abbrev Calls (ups : List Upstream) : Type :=
  Pool (Cell.Val (n := ups.length)) UInt64 (Call ups.length) Outcome

/-- No call has been made. -/
def Calls.start (ups : List Upstream) : Calls ups where
  mem := initial ups
  threads := []

/-- A new call, or the next atomic access of one that was made. -/
abbrev Calls.step (ups : List Upstream) :
    Calls ups → Pool.Action UInt64 (Call ups.length) → Option (Calls ups) :=
  Pool.step (Call.body ups)

end Score

end XtpRs.Upstream
