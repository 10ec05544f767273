import XtpRs.Lib.Run
import XtpRs.Sniff.TlsRecords

/-!
# When a TCP sniffer gives up

`sniff_with_engine` of `src/sniff/mod.rs` against the clock: the bytes of a client arrive over time,
and a round of the loop peeks at one time, starts to wait for more at another and looks again while
it waits. A sniffer that needs more data should give up only if it has peeked at as many bytes as it
may, or if no more of them arrive while it waits.

The loop gives up earlier. The length that it asks for doubles from round to round, however few
bytes there are, and the loop ends when that length has reached the maximum. And the deadline of the
wait ends it without another look at what has arrived since the last one.

## Main definitions

* `Arrival`: how many bytes of a client have arrived at which time.
* `loopStep`: a round of the loop that asks for another one.
* `TimedRound`, `TimedFrom`: the times of a round.

## Main results

* `sniffLoop_cons_of_loopStep`, `sniffLoop_cons_of_loopStep_none`: the loop, round by round.
* `givesUp_early_iff`: which rounds give up too early.
-/

namespace XtpRs.Sniff

open Lib

/-! ### Rounds of the loop -/

/-- The variables of the loop of `sniff_with_engine`. -/
structure LoopState where
  peekLen : ℕ
  attempt : ℕ
  lastPeekLen : ℕ
  deriving DecidableEq, Repr

/-- A round that ends in `continue`: the variables of the next one. -/
def loopStep (engine : Sniffer) (client : Bytes) (maxLen : ℕ) (s : LoopState) (round : Round) :
    Option LoopState :=
  match peekClientPrefix client round.peek s.peekLen with
  | none => none
  | some buf =>
    match engine.classify buf maxLen with
    | .matched _ => none
    | .abort _ => none
    | .needMore =>
      if shouldRetrySniff s.attempt engine.maxRetries buf.length s.lastPeekLen then
        let nextLen := min (min (s.peekLen * 2) usizeMax) maxLen
        if nextLen ≤ s.peekLen then none
        else
          match waitForMorePeekData client nextLen buf.length round.polls with
          | some (some _) => some ⟨nextLen, s.attempt + 1, buf.length⟩
          | _ => none
      else none

/-- The loop from given variables on. -/
def LoopState.sniff (s : LoopState) (engine : Sniffer) (client : Bytes) (maxLen : ℕ)
    (rounds : List Round) : Option Str :=
  sniffLoop engine client maxLen s.peekLen s.attempt s.lastPeekLen rounds

/-- The length that the next round asks for. -/
def nextLen (peekLen maxLen : ℕ) : ℕ := min (min (peekLen * 2) usizeMax) maxLen

variable {engine : Sniffer} {client : Bytes} {maxLen : ℕ} {s s' : LoopState} {round : Round}

/-- The rounds that end in `continue`. -/
theorem loopStep_eq_some_iff :
    loopStep engine client maxLen s round = some s' ↔
      ∃ buf, peekClientPrefix client round.peek s.peekLen = some buf ∧
        engine.classify buf maxLen = .needMore ∧
        shouldRetrySniff s.attempt engine.maxRetries buf.length s.lastPeekLen = true ∧
        s.peekLen < nextLen s.peekLen maxLen ∧
        (∃ more, waitForMorePeekData client (nextLen s.peekLen maxLen) buf.length round.polls =
          some (some more)) ∧
        s' = ⟨nextLen s.peekLen maxLen, s.attempt + 1, buf.length⟩ := by
  rw [loopStep]
  cases hbuf : peekClientPrefix client round.peek s.peekLen with
  | none => simp
  | some buf =>
    dsimp only
    cases hattempt : engine.classify buf maxLen with
    | matched host => simp [hattempt]
    | abort error => simp [hattempt]
    | needMore =>
      dsimp only
      by_cases hretry : shouldRetrySniff s.attempt engine.maxRetries buf.length s.lastPeekLen = true
      · rw [if_pos hretry]
        change (if nextLen s.peekLen maxLen ≤ s.peekLen then none
          else match waitForMorePeekData client (nextLen s.peekLen maxLen) buf.length
              round.polls with
            | some (some _) => some ⟨nextLen s.peekLen maxLen, s.attempt + 1, buf.length⟩
            | _ => none) = some s' ↔ _
        by_cases hnext : nextLen s.peekLen maxLen ≤ s.peekLen
        · simp [hnext, not_lt.mpr hnext]
        · rw [if_neg hnext]
          rw [not_le] at hnext
          rcases hwait : waitForMorePeekData client (nextLen s.peekLen maxLen) buf.length
            round.polls with _ | _ | more
          · simp [hwait]
          · simp [hwait]
          · constructor
            · rintro ⟨⟩
              exact ⟨buf, rfl, hattempt, hretry, hnext, ⟨more, hwait⟩, rfl⟩
            · rintro ⟨_, ⟨⟩, -, -, -, -, rfl⟩
              rfl
      · rw [if_neg hretry]
        simp [hretry]

theorem sniffLoop_cons_of_loopStep (h : loopStep engine client maxLen s round = some s')
    (rest : List Round) :
    s.sniff engine client maxLen (round :: rest) = s'.sniff engine client maxLen rest := by
  obtain ⟨buf, hbuf, hattempt, hretry, hnext, ⟨more, hwait⟩, rfl⟩ := loopStep_eq_some_iff.mp h
  have hsome : ¬min (min (s.peekLen * 2) usizeMax) maxLen ≤ s.peekLen := not_le.mpr hnext
  rw [nextLen] at hwait
  rw [LoopState.sniff, sniffLoop, hbuf]
  dsimp only
  rw [hattempt]
  dsimp only
  rw [if_pos hretry, if_neg hsome, hwait]
  rfl

/-- A round that finds no host and does not ask for another one is the last. -/
theorem sniffLoop_cons_of_loopStep_none (h : loopStep engine client maxLen s round = none)
    (hhost : ∀ buf, peekClientPrefix client round.peek s.peekLen = some buf →
      ∀ host, engine.classify buf maxLen ≠ .matched host) (rest : List Round) :
    s.sniff engine client maxLen (round :: rest) = none := by
  rw [LoopState.sniff, sniffLoop]
  rw [loopStep] at h
  cases hbuf : peekClientPrefix client round.peek s.peekLen with
  | none => rfl
  | some buf =>
    rw [hbuf] at h
    dsimp only at h ⊢
    cases hattempt : engine.classify buf maxLen with
    | matched host => exact absurd hattempt (hhost buf hbuf host)
    | abort error => rfl
    | needMore =>
      rw [hattempt] at h
      dsimp only at h ⊢
      split_ifs at h ⊢
      · rfl
      · generalize waitForMorePeekData client _ _ _ = waited at h ⊢
        rcases waited with _ | _ | more
        · rfl
        · rfl
        · cases h
      · rfl

/-! ### Time -/

/-- How many bytes of a client have arrived at which time. -/
structure Arrival (client : Bytes) where
  arrived : ℕ → ℕ
  mono : Monotone arrived
  le : ∀ t, arrived t ≤ client.length

/-- The times of a round: when it peeks, when it starts to wait for more, when it looks again, and
when the wait is over. -/
structure TimedRound where
  peekAt : ℕ
  waitAt : ℕ
  polls : List ℕ
  doneAt : ℕ

/-- What the loop sees of a round, if no peek fails. -/
def TimedRound.toRound (r : TimedRound) (a : Arrival client) : Round where
  peek := some (a.arrived r.peekAt)
  polls := r.polls.map fun t => some (a.arrived t)

/-- The variables of the loop and the time. -/
structure TimedState where
  loop : LoopState
  now : ℕ
  deriving DecidableEq, Repr

/-- The order of the times of a round. A peek returns no bytes only at the end of the stream, and
the loop looks again until the deadline only. -/
structure TimedFrom (a : Arrival client) (wait : ℕ) (s : TimedState) (r : TimedRound) : Prop where
  now_le : s.now ≤ r.peekAt
  eof : a.arrived r.peekAt = 0 → ∀ t, a.arrived t = 0
  peekAt_le : r.peekAt ≤ r.waitAt
  polls : ∀ t ∈ r.polls, r.waitAt ≤ t ∧ t < r.waitAt + wait ∧ t ≤ r.doneAt

/-- A round in time that asks for another one. -/
def timedStep (engine : Sniffer) (a : Arrival client) (maxLen : ℕ) (s : TimedState)
    (r : TimedRound) : Option TimedState :=
  (loopStep engine client maxLen s.loop (r.toRound a)).map fun loop => ⟨loop, r.doneAt⟩

/-- The start of `sniff_with_engine`. -/
def TimedState.start (engine : Sniffer) (cfg : SniffConfig) : TimedState where
  loop := ⟨min (max engine.initialPeekLen 1) (sniffMaxLen engine cfg), 0, 0⟩
  now := 0

/-- The length that the loop asks for in an attempt. -/
def requestedLen (engine : Sniffer) (cfg : SniffConfig) (attempt : ℕ) : ℕ :=
  min (max engine.initialPeekLen 1 * 2 ^ attempt) (sniffMaxLen engine cfg)

/-- The bytes that a round peeks at. -/
def peeked (a : Arrival client) (s : TimedState) (r : TimedRound) : Bytes :=
  (client.take (a.arrived r.peekAt)).take s.loop.peekLen

theorem length_peeked (a : Arrival client) (s : TimedState) (r : TimedRound) :
    (peeked a s r).length = min s.loop.peekLen (a.arrived r.peekAt) := by
  rw [peeked, List.length_take, List.length_take, Nat.min_eq_left (a.le _)]

/-! ### What a round does -/

theorem shouldRetrySniff_eq_true_iff {attempt maxRetries curLen lastPeekLen : ℕ} :
    shouldRetrySniff attempt maxRetries curLen lastPeekLen = true ↔
      attempt < maxRetries ∧ 0 < curLen ∧ lastPeekLen < curLen := by
  rw [shouldRetrySniff]
  split_ifs with hretries hempty
  · simp [hretries]
  · simp [hempty]
  · rw [decide_eq_true_eq]
    omega

/-- The wait ends with more data if one of the peeks sees more. -/
theorem exists_waitForMorePeekData_iff (a : Arrival client) {maxLen lastLen : ℕ} {polls : List ℕ} :
    (∃ buf, waitForMorePeekData client maxLen lastLen (polls.map fun t => some (a.arrived t)) =
        some (some buf)) ↔
      ∃ t ∈ polls, lastLen < min maxLen (a.arrived t) := by
  induction polls with
  | nil => simp [waitForMorePeekData]
  | cons t polls ih =>
    have hlength : ((client.take (a.arrived t)).take maxLen).length = min maxLen (a.arrived t) := by
      rw [List.length_take, List.length_take, Nat.min_eq_left (a.le t)]
    rw [List.map_cons, waitForMorePeekData, List.exists_mem_cons_iff, ← ih]
    show (∃ buf, (if lastLen < ((client.take (a.arrived t)).take maxLen).length then _ else _) =
      some (some buf)) ↔ _
    rw [hlength]
    split_ifs with hmore
    · simp [hmore]
    · rw [or_iff_right hmore]

/-- The rounds that ask for another one. -/
theorem timedStep_eq_some_iff {a : Arrival client} {s s' : TimedState} {r : TimedRound} :
    timedStep engine a maxLen s r = some s' ↔
      engine.classify (peeked a s r) maxLen = .needMore ∧ s.loop.attempt < engine.maxRetries ∧
      0 < (peeked a s r).length ∧ s.loop.lastPeekLen < (peeked a s r).length ∧
      s.loop.peekLen < nextLen s.loop.peekLen maxLen ∧
      (∃ t ∈ r.polls, (peeked a s r).length <
        min (nextLen s.loop.peekLen maxLen) (a.arrived t)) ∧
      s' = ⟨⟨nextLen s.loop.peekLen maxLen, s.loop.attempt + 1, (peeked a s r).length⟩,
        r.doneAt⟩ := by
  have hpeek : peekClientPrefix client (r.toRound a).peek s.loop.peekLen =
      some (peeked a s r) := rfl
  have hpolls : (r.toRound a).polls = r.polls.map fun t => some (a.arrived t) := rfl
  rw [timedStep, Option.map_eq_some_iff]
  simp only [loopStep_eq_some_iff, hpeek, hpolls, Option.some.injEq,
    exists_waitForMorePeekData_iff, shouldRetrySniff_eq_true_iff]
  constructor
  · rintro ⟨loop, ⟨buf, rfl, hattempt, ⟨hretries, hpos, hlast⟩, hnext, hmore, rfl⟩, rfl⟩
    exact ⟨hattempt, hretries, hpos, hlast, hnext, hmore, rfl⟩
  · rintro ⟨hattempt, hretries, hpos, hlast, hnext, hmore, rfl⟩
    exact ⟨_, ⟨_, rfl, hattempt, ⟨hretries, hpos, hlast⟩, hnext, hmore, rfl⟩, rfl⟩

/-! ### Rounds under way -/

variable {cfg : SniffConfig} {wait : ℕ}

/-- What holds of the variables between two rounds. -/
structure Underway (engine : Sniffer) (cfg : SniffConfig) (a : Arrival client) (s : TimedState) :
    Prop where
  peekLen_eq : s.loop.peekLen = requestedLen engine cfg s.loop.attempt
  lastPeekLen : s.loop.lastPeekLen = 0 ∨
    s.loop.lastPeekLen < s.loop.peekLen ∧ ∃ t ≤ s.now, s.loop.lastPeekLen < a.arrived t

theorem sniffMaxLen_le_usizeMax (hcap : cfg.tcpPeekBufferSize ≤ usizeMax) :
    sniffMaxLen engine cfg ≤ usizeMax := by
  have hpos : 1 ≤ usizeMax := by decide
  exact (min_le_right _ _).trans (max_le hcap hpos)

theorem requestedLen_succ (hcap : cfg.tcpPeekBufferSize ≤ usizeMax) (attempt : ℕ) :
    requestedLen engine cfg (attempt + 1) =
      nextLen (requestedLen engine cfg attempt) (sniffMaxLen engine cfg) := by
  have hmax : sniffMaxLen engine cfg ≤ usizeMax := sniffMaxLen_le_usizeMax hcap
  rw [requestedLen, requestedLen, nextLen, Nat.pow_succ, ← Nat.mul_assoc]
  omega

theorem requestedLen_pos (engine : Sniffer) (cfg : SniffConfig) (attempt : ℕ) :
    0 < requestedLen engine cfg attempt := by
  have hpow : 0 < 2 ^ attempt := Nat.two_pow_pos attempt
  have hinit : 0 < max engine.initialPeekLen 1 * 2 ^ attempt := Nat.mul_pos (by omega) hpow
  have hmax : 0 < sniffMaxLen engine cfg := by
    rw [sniffMaxLen]
    omega
  exact lt_min hinit hmax

/-- The length asked for grows until it is the maximum. -/
theorem lt_nextLen_iff {peekLen : ℕ} (hpos : 0 < peekLen) (hmax : maxLen ≤ usizeMax)
    (hle : peekLen ≤ maxLen) : peekLen < nextLen peekLen maxLen ↔ peekLen < maxLen := by
  rw [nextLen]
  omega

theorem underway_start (a : Arrival client) : Underway engine cfg a (.start engine cfg) := by
  refine ⟨?_, .inl rfl⟩
  show min (max engine.initialPeekLen 1) _ = min (max engine.initialPeekLen 1 * 2 ^ 0) _
  rw [pow_zero, Nat.mul_one]

theorem Underway.step {a : Arrival client} {s s' : TimedState} {r : TimedRound}
    (hcap : cfg.tcpPeekBufferSize ≤ usizeMax) (h : Underway engine cfg a s)
    (hr : TimedFrom a wait s r)
    (hstep : timedStep engine a (sniffMaxLen engine cfg) s r = some s') :
    Underway engine cfg a s' := by
  obtain ⟨-, -, -, -, -, ⟨t, ht, hmore⟩, rfl⟩ := timedStep_eq_some_iff.mp hstep
  refine ⟨?_, .inr ⟨?_, t, (hr.polls t ht).2.2, ?_⟩⟩
  · rw [requestedLen_succ hcap, ← h.peekLen_eq]
  · exact hmore.trans_le (min_le_left _ _)
  · exact hmore.trans_le (min_le_right _ _)

/-- A round that sees a byte sees more than the round before. -/
theorem Underway.lastPeekLen_lt {a : Arrival client} {s : TimedState} {r : TimedRound}
    (h : Underway engine cfg a s) (hr : TimedFrom a wait s r)
    (hpos : 0 < (peeked a s r).length) : s.loop.lastPeekLen < (peeked a s r).length := by
  rcases h.lastPeekLen with hzero | ⟨hlt, t, ht, harrived⟩
  · rw [hzero]
    exact hpos
  · rw [length_peeked]
    exact lt_min hlt (harrived.trans_le (a.mono (ht.trans hr.now_le)))

/-- The runs in time are runs of `sniff_with_engine`. -/
theorem exists_rounds_of_steps {a : Arrival client} {s : TimedState}
    (h : Steps (timedStep engine a (sniffMaxLen engine cfg)) (TimedFrom a wait)
      (.start engine cfg) s) :
    ∃ before : List TimedRound, ∀ rest,
      sniffWithEngine engine cfg client (before.map (·.toRound a) ++ rest) =
        s.loop.sniff engine client (sniffMaxLen engine cfg) rest := by
  induction h with
  | refl => exact ⟨[], fun rest => rfl⟩
  | @tail t u r _ _ hstep ih =>
    obtain ⟨before, hbefore⟩ := ih
    obtain ⟨loop, hloop, rfl⟩ := Option.map_eq_some_iff.mp hstep
    refine ⟨before ++ [r], fun rest => ?_⟩
    rw [List.map_append, List.append_assoc, hbefore]
    exact sniffLoop_cons_of_loopStep hloop rest

/-- A round at which more bytes arrive until the deadline asks for another one if the length asked
for can grow and the loop looks again in time. -/
theorem Underway.timedStep_ne_none_iff (hcap : cfg.tcpPeekBufferSize ≤ usizeMax)
    {a : Arrival client} {s : TimedState} (h : Underway engine cfg a s) {r : TimedRound}
    (hr : TimedFrom a wait s r)
    (hmore : engine.classify (peeked a s r) (sniffMaxLen engine cfg) = .needMore)
    (hattempt : s.loop.attempt < engine.maxRetries)
    (harrives : (peeked a s r).length < a.arrived (r.waitAt + wait)) :
    timedStep engine a (sniffMaxLen engine cfg) s r ≠ none ↔
      requestedLen engine cfg s.loop.attempt < sniffMaxLen engine cfg ∧
        ∃ t ∈ r.polls, (peeked a s r).length < a.arrived t := by
  have hmax : sniffMaxLen engine cfg ≤ usizeMax := sniffMaxLen_le_usizeMax hcap
  have hrequested := requestedLen_pos engine cfg s.loop.attempt
  have hle : (peeked a s r).length ≤ requestedLen engine cfg s.loop.attempt := by
    rw [length_peeked, h.peekLen_eq]
    exact min_le_left _ _
  have hpos : 0 < (peeked a s r).length := by
    rw [length_peeked, h.peekLen_eq]
    refine lt_min hrequested (Nat.pos_of_ne_zero fun hzero => ?_)
    rw [hr.eof hzero] at harrives
    exact Nat.not_lt_zero _ harrives
  have hgrow := lt_nextLen_iff hrequested hmax (min_le_right _ _)
  rw [Option.ne_none_iff_exists']
  constructor
  · rintro ⟨s', hstep⟩
    obtain ⟨-, -, -, -, hnext, ⟨t, ht, hseen⟩, -⟩ := timedStep_eq_some_iff.mp hstep
    rw [h.peekLen_eq, hgrow] at hnext
    exact ⟨hnext, t, ht, hseen.trans_le (min_le_right _ _)⟩
  · rintro ⟨hnext, t, ht, hseen⟩
    rw [← hgrow] at hnext
    refine ⟨_, timedStep_eq_some_iff.mpr ⟨hmore, hattempt, hpos, h.lastPeekLen_lt hr hpos, ?_,
      ⟨t, ht, ?_⟩, rfl⟩⟩
    · rwa [h.peekLen_eq]
    · rw [h.peekLen_eq]
      exact lt_min (hle.trans_lt hnext) hseen

/-- **Giving up.** Take a round that the loop reaches, whose bytes need more, with retries left. If
it is the last one, the result is that there is no host. It is the last one although fewer bytes
than `max_len` have been peeked at and another one arrives until the deadline, except if the length
asked for is below `max_len` and the loop looks between that byte and the deadline. -/
theorem givesUp_early_iff (hcap : cfg.tcpPeekBufferSize ≤ usizeMax) (a : Arrival client)
    {s : TimedState} (hs : Steps (timedStep engine a (sniffMaxLen engine cfg)) (TimedFrom a wait)
      (.start engine cfg) s) {r : TimedRound} (hr : TimedFrom a wait s r)
    (hmore : engine.classify (peeked a s r) (sniffMaxLen engine cfg) = .needMore)
    (hattempt : s.loop.attempt < engine.maxRetries) :
    (timedStep engine a (sniffMaxLen engine cfg) s r = none → ∃ before : List TimedRound, ∀ rest,
      sniffWithEngine engine cfg client (before.map (·.toRound a) ++ r.toRound a :: rest) = none) ∧
    ((timedStep engine a (sniffMaxLen engine cfg) s r = none →
        (peeked a s r).length = sniffMaxLen engine cfg ∨
          a.arrived (r.waitAt + wait) ≤ (peeked a s r).length) ↔
      ((peeked a s r).length < sniffMaxLen engine cfg →
        (peeked a s r).length < a.arrived (r.waitAt + wait) →
          requestedLen engine cfg s.loop.attempt < sniffMaxLen engine cfg ∧
            ∃ t ∈ r.polls, (peeked a s r).length < a.arrived t)) := by
  have hunderway : Underway engine cfg a s :=
    hs.invariant (underway_start a) fun _ _ _ h hr hstep => h.step hcap hr hstep
  refine ⟨fun hnone => ?_, ?_⟩
  · obtain ⟨before, hbefore⟩ := exists_rounds_of_steps hs
    refine ⟨before, fun rest => ?_⟩
    rw [hbefore]
    refine sniffLoop_cons_of_loopStep_none (Option.map_eq_none_iff.mp hnone) ?_ rest
    intro buf hbuf host hmatched
    obtain rfl : peeked a s r = buf := Option.some.inj hbuf
    rw [hmore] at hmatched
    cases hmatched
  · have hle : (peeked a s r).length ≤ sniffMaxLen engine cfg := by
      rw [length_peeked, hunderway.peekLen_eq]
      exact (min_le_left _ _).trans (min_le_right _ _)
    constructor
    · intro hends hlt harrives
      refine (hunderway.timedStep_ne_none_iff hcap hr hmore hattempt harrives).mp fun hnone => ?_
      rcases hends hnone with hall | hquiet
      · omega
      · omega
    · intro hcondition hnone
      by_contra hearly
      rw [not_or, not_le] at hearly
      have hlt : (peeked a s r).length < sniffMaxLen engine cfg := lt_of_le_of_ne hle hearly.1
      exact (hunderway.timedStep_ne_none_iff hcap hr hmore hattempt hearly.2).mpr
        (hcondition hlt hearly.2) hnone

/-! ### A slow client -/

/-- The TLS sniffer of the default configuration. -/
def defaultTls : Sniffer := TlsSniffer.toSniffer ⟨2048, 32768, 5⟩

/-- The first bytes of a TLS record. -/
def helloStart : Bytes := [0x16, 0x03, 0x01, 0x00, 0x3c, 0x01]

/-- All of the bytes arrive at once, and no more. -/
def burst : Arrival helloStart where
  arrived _ := 6
  mono := monotone_const
  le _ := le_rfl

/-- The first round gives up after its wait, in which nothing arrives. -/
theorem givesUp_burst :
    timedStep defaultTls burst (sniffMaxLen defaultTls ⟨32768⟩) (.start defaultTls ⟨32768⟩)
      ⟨0, 0, [0, 50], 100⟩ = none ∧
    burst.arrived (0 + 100) ≤
      (peeked burst (.start defaultTls ⟨32768⟩) ⟨0, 0, [0, 50], 100⟩).length := by
  have hround : TimedFrom burst 100 (.start defaultTls ⟨32768⟩) ⟨0, 0, [0, 50], 100⟩ := by
    refine ⟨le_rfl, fun h => absurd h (by decide), le_rfl, ?_⟩
    decide
  have hnone : timedStep defaultTls burst (sniffMaxLen defaultTls ⟨32768⟩)
      (.start defaultTls ⟨32768⟩) ⟨0, 0, [0, 50], 100⟩ = none := by
    decide +kernel
  have hends := (givesUp_early_iff (by decide +kernel) burst .refl hround (by decide +kernel)
    (by decide +kernel)).2.mpr (fun _ harrives => absurd harrives (by decide +kernel)) hnone
  refine ⟨hnone, hends.resolve_left ?_⟩
  decide +kernel

/-- A byte every 50 milliseconds. -/
def trickle : Arrival helloStart where
  arrived t := min (t / 50 + 1) 6
  mono := by
    intro t t' h
    have hdiv : t / 50 ≤ t' / 50 := Nat.div_le_div_right h
    show min (t / 50 + 1) 6 ≤ min (t' / 50 + 1) 6
    omega
  le t := min_le_right _ _

/-- The loop looks every 5 milliseconds, until the next byte is there. -/
def trickleRound (k : ℕ) : TimedRound where
  peekAt := 50 * k
  waitAt := 50 * k
  polls := (List.range 11).map fun i => 50 * k + 5 * i
  doneAt := 50 * k + 50

/-- In the fifth round the loop has asked for `max_len` bytes and seen five. It gives up, with a
retry left, although the next byte arrives 50 milliseconds later. -/
theorem not_patient_trickle : ∃ s,
    Steps (timedStep defaultTls trickle (sniffMaxLen defaultTls ⟨32768⟩)) (TimedFrom trickle 100)
      (.start defaultTls ⟨32768⟩) s ∧
    TimedFrom trickle 100 s (trickleRound 4) ∧
    defaultTls.classify (peeked trickle s (trickleRound 4)) (sniffMaxLen defaultTls ⟨32768⟩) =
      .needMore ∧
    s.loop.attempt < defaultTls.maxRetries ∧
    timedStep defaultTls trickle (sniffMaxLen defaultTls ⟨32768⟩) s (trickleRound 4) = none ∧
    (peeked trickle s (trickleRound 4)).length ≠ sniffMaxLen defaultTls ⟨32768⟩ ∧
    (peeked trickle s (trickleRound 4)).length <
      trickle.arrived ((trickleRound 4).waitAt + 100) := by
  have htimed : ∀ s r, (decide (s.now ≤ r.peekAt ∧ trickle.arrived r.peekAt ≠ 0 ∧
      r.peekAt ≤ r.waitAt ∧ ∀ t ∈ r.polls, r.waitAt ≤ t ∧ t < r.waitAt + 100 ∧ t ≤ r.doneAt)) =
        true → TimedFrom trickle 100 s r := by
    intro s r h
    obtain ⟨hnow, hbytes, hwait, hpolls⟩ := of_decide_eq_true h
    exact ⟨hnow, fun hzero => absurd hzero hbytes, hwait, hpolls⟩
  have hrun : ∃ s, Steps (timedStep defaultTls trickle (sniffMaxLen defaultTls ⟨32768⟩))
      (TimedFrom trickle 100) (.start defaultTls ⟨32768⟩) s ∧ s = ⟨⟨32768, 4, 4⟩, 200⟩ :=
    exists_steps_of_guarded_run (l := (List.range 4).map trickleRound) htimed (by decide +kernel)
  obtain ⟨s, hs, rfl⟩ := hrun
  refine ⟨_, hs, htimed _ _ (by decide +kernel), ?_, ?_, ?_, ?_, ?_⟩
  · decide +kernel
  · decide +kernel
  · decide +kernel
  · decide +kernel
  · decide +kernel

end XtpRs.Sniff
