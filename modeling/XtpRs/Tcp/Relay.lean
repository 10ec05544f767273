import XtpRs.Lib.Run

/-!
# The half-close timer of the relay

`copy_bidirectional` of `src/relay.rs` wraps both streams in `Tracked`, which notes whether bytes
have moved and whether an EOF has been read, and polls the copy and a timer by turns. The copy
itself is outside of the repository: what it does with the two streams in a poll, and whether it is
finished then, is part of the poll. A poll happens at one reading of the clock, and `Sleep` is ready
when that has reached the deadline.

An `Instant` has signed 64-bit seconds, as on Linux, and is not negative; `+` panics on overflow.

## Main definitions

* `Relay.poll`, `Relay.step`: one poll with a grace period, and one after which the next may come.
* `Relay.pollCopy`, `Relay.stepCopy`: the same with or without a grace period.
* `Poll.moves`, `Poll.seesEof`, `FirstEof`, `lastRestart`: what the polls have seen.

## Main results

* `Relay.halfCloseTimeout_iff`: the polls that return the half-close timeout.
-/

namespace XtpRs.Tcp

open Lib

/-- `std::time::Duration`, in nanoseconds. -/
structure Duration where
  nanos : ℕ
  lt : nanos < 2 ^ 64 * 10 ^ 9
  deriving DecidableEq

/-- `std::time::Instant`, in nanoseconds. -/
structure Instant where
  nanos : ℕ
  lt : nanos < 2 ^ 63 * 10 ^ 9
  deriving DecidableEq

/-- `Instant::checked_add`; `+` panics where it returns nothing. -/
def Instant.checkedAdd (t : Instant) (d : Duration) : Option Instant :=
  if h : t.nanos + d.nanos < 2 ^ 63 * 10 ^ 9 then some ⟨t.nanos + d.nanos, h⟩ else none

/-- What a poll of a stream returns, when it is ready: `Ok` or `Err`. -/
abbrev IoPoll (α : Type) := Option (Except Unit α)

/-- What the copy does with one of the streams. A read goes into a buffer with room for `remaining`
bytes and returns how many it has filled. -/
inductive StreamCall
  | pollRead (remaining : ℕ) (result : IoPoll ℕ)
  | pollWrite (result : IoPoll ℕ)
  | pollFlush (result : IoPoll Unit)
  | pollShutdown (result : IoPoll Unit)

/-- The flags that the two `Tracked` share. -/
structure Flags where
  eof : Bool := false
  activity : Bool := false
  deriving DecidableEq, Repr

namespace Flags

/-- `Tracked::poll_read`. -/
def pollRead (f : Flags) (remaining : ℕ) : IoPoll ℕ → Flags
  | some (.ok filled) =>
    if 0 < filled then { f with activity := true }
    else if 0 < remaining then { f with eof := true }
    else f
  | _ => f

/-- `Tracked::poll_write`. -/
def pollWrite (f : Flags) : IoPoll ℕ → Flags
  | some (.ok n) => if 0 < n then { f with activity := true } else f
  | _ => f

/-- The methods of `Tracked`. -/
def call (f : Flags) : StreamCall → Flags
  | .pollRead remaining result => f.pollRead remaining result
  | .pollWrite result => f.pollWrite result
  | .pollFlush _ => f
  | .pollShutdown _ => f

end Flags

/-- What the copy returns: the numbers of bytes, or an error. -/
abbrev CopyResult := Except Unit (UInt64 × UInt64)

/-- A poll of the relay: when it happens, what the copy does with the streams in it, and what the
copy returns if it is ready. -/
structure Poll where
  now : Instant
  calls : List StreamCall := []
  copy : Option CopyResult := none

/-- What a poll of the relay comes to. -/
inductive Outcome
  | ready (result : CopyResult)
  | halfCloseTimeout
  | pending
  | panicked
  deriving DecidableEq

/-- The local state of `copy_bidirectional` with a grace period: the flags, the deadline of the
timer, and whether it has been armed. -/
structure Relay where
  flags : Flags
  timer : Instant
  armed : Bool

namespace Relay

/-- The state before the first poll. The deadline with which the timer is made is never waited
for. -/
def start (timer : Instant) : Relay where
  flags := {}
  timer
  armed := false

/-- The poll of the timer. -/
def pollTimer (s : Relay) (now : Instant) : Outcome × Relay :=
  (if s.timer.nanos ≤ now.nanos then .halfCloseTimeout else .pending, s)

/-- The closure of `poll_fn`. -/
def poll (grace : Duration) (s : Relay) (p : Poll) : Outcome × Relay :=
  let flags := p.calls.foldl Flags.call s.flags
  match p.copy with
  | some result => (.ready result, { s with flags })
  | none =>
    let moved := flags.activity
    let s := { s with flags := { flags with activity := false } }
    if !s.flags.eof then (.pending, s)
    else if !s.armed || moved then
      match p.now.checkedAdd grace with
      | none => (.panicked, s)
      | some timer => { s with timer, armed := true }.pollTimer p.now
    else s.pollTimer p.now

/-- A poll after which the relay is polled again. -/
def step (grace : Duration) (s : Relay) (p : Poll) : Option Relay :=
  match s.poll grace p with
  | (.pending, s) => some s
  | _ => none

/-- A poll of `copy_bidirectional`. Without a grace period it is one of the copy alone. -/
def pollCopy (grace : Option Duration) (s : Relay) (p : Poll) : Outcome × Relay :=
  match grace with
  | none =>
    match p.copy with
    | some result => (.ready result, s)
    | none => (.pending, s)
  | some grace => s.poll grace p

/-- A poll of `copy_bidirectional` after which it is polled again. -/
def stepCopy (grace : Option Duration) (s : Relay) (p : Poll) : Option Relay :=
  match s.pollCopy grace p with
  | (.pending, s) => some s
  | _ => none

end Relay

/-! ### What the polls have seen -/

/-- The copy has read an EOF: no byte into a buffer with room. -/
def StreamCall.seesEof : StreamCall → Bool
  | pollRead remaining (some (.ok filled)) => filled == 0 && 0 < remaining
  | _ => false

/-- The copy has read or written bytes. -/
def StreamCall.moves : StreamCall → Bool
  | pollRead _ (some (.ok filled)) => 0 < filled
  | pollWrite (some (.ok n)) => 0 < n
  | _ => false

namespace Poll

/-- An EOF is read in the poll. -/
def seesEof (p : Poll) : Bool := p.calls.any StreamCall.seesEof

/-- Bytes move in the poll. -/
def moves (p : Poll) : Bool := p.calls.any StreamCall.moves

end Poll

theorem Flags.call_eq (f : Flags) (c : StreamCall) :
    f.call c = { eof := f.eof || c.seesEof, activity := f.activity || c.moves } := by
  obtain ⟨eof, activity⟩ := f
  rcases c with ⟨remaining, _ | (e | filled)⟩ | ⟨_ | (e | n)⟩ | result | result
  case pollRead.some.ok =>
    cases filled with
    | zero => by_cases hroom : 0 < remaining <;>
        simp [Flags.call, Flags.pollRead, StreamCall.seesEof, StreamCall.moves, hroom]
    | succ filled => simp [Flags.call, Flags.pollRead, StreamCall.seesEof, StreamCall.moves]
  case pollWrite.some.ok =>
    cases n with
    | zero => simp [Flags.call, Flags.pollWrite, StreamCall.seesEof, StreamCall.moves]
    | succ n => simp [Flags.call, Flags.pollWrite, StreamCall.seesEof, StreamCall.moves]
  all_goals simp [Flags.call, Flags.pollRead, Flags.pollWrite, StreamCall.seesEof, StreamCall.moves]

/-- The flags after the calls of a poll. -/
theorem Flags.foldl_call (f : Flags) (calls : List StreamCall) :
    calls.foldl Flags.call f =
      { eof := f.eof || calls.any StreamCall.seesEof
        activity := f.activity || calls.any StreamCall.moves } := by
  induction calls generalizing f with
  | nil => simp
  | cons c calls ih => simp [ih, Flags.call_eq, Bool.or_assoc]

/-- Of the polls made so far, `first` is the first that has seen an EOF, and those in `after` came
after it. -/
def FirstEof (polls : List Poll) (first : Poll) (after : List Poll) : Prop :=
  ∃ earlier, polls = earlier ++ first :: after ∧ (∀ q ∈ earlier, q.seesEof = false) ∧
    first.seesEof = true

/-- The last poll that set the timer back: the last one in which bytes moved after the first EOF, or
else the one with the EOF. -/
def restart (first : Poll) (after : List Poll) : Poll :=
  ((after.filter Poll.moves).getLast?).getD first

theorem FirstEof.any {polls after : List Poll} {first : Poll} (h : FirstEof polls first after) :
    polls.any Poll.seesEof = true := by
  obtain ⟨earlier, rfl, -, hfirst⟩ := h
  simp [hfirst]

theorem exists_firstEof {polls : List Poll} (h : polls.any Poll.seesEof = true) :
    ∃ first after, FirstEof polls first after := by
  induction polls with
  | nil => simp at h
  | cons p polls ih =>
    cases hp : p.seesEof with
    | true => exact ⟨p, polls, [], rfl, by simp, hp⟩
    | false =>
      obtain ⟨first, after, earlier, rfl, hearlier, hfirst⟩ := ih (by simpa [hp] using h)
      exact ⟨first, after, p :: earlier, rfl, List.forall_mem_cons.mpr ⟨hp, hearlier⟩, hfirst⟩

/-- The first EOF among the polls with one more. -/
theorem firstEof_concat {polls after : List Poll} {first p : Poll}
    (h : FirstEof (polls ++ [p]) first after) :
    (polls.any Poll.seesEof = false ∧ first = p ∧ after = []) ∨
      ∃ after', FirstEof polls first after' ∧ after = after' ++ [p] := by
  obtain ⟨earlier, heq, hearlier, hfirst⟩ := h
  rcases List.eq_nil_or_concat after with rfl | ⟨after', q, rfl⟩
  · obtain ⟨rfl, hlast⟩ := List.append_inj' heq rfl
    obtain rfl : p = first := by simpa using hlast
    exact .inl ⟨by simpa using hearlier, rfl, rfl⟩
  · have heq' : polls ++ [p] = (earlier ++ first :: after') ++ [q] := by simpa using heq
    obtain ⟨rfl, hlast⟩ := List.append_inj' heq' rfl
    obtain rfl : p = q := by simpa using hlast
    exact .inr ⟨after', ⟨earlier, rfl, hearlier, hfirst⟩, by simp⟩

theorem restart_concat (first p : Poll) (after : List Poll) :
    restart first (after ++ [p]) = if p.moves then p else restart first after := by
  rw [restart, List.filter_append]
  split_ifs with h
  · simp [h]
  · simp [h, restart]

namespace Relay

variable {grace : Duration} {polls : List Poll} {p : Poll} {s t : Relay} {timer : Instant}

/-- The state after polls that all came to nothing. -/
structure After (grace : Duration) (polls : List Poll) (s : Relay) : Prop where
  activity : s.flags.activity = false
  eof : s.flags.eof = polls.any Poll.seesEof
  armed : s.armed = polls.any Poll.seesEof
  timer : ∀ first after, FirstEof polls first after →
    s.timer.nanos = (restart first after).now.nanos + grace.nanos

theorem after_start : After grace [] (start timer) where
  activity := rfl
  eof := rfl
  armed := rfl
  timer := by
    rintro first after ⟨earlier, heq, -, -⟩
    simp at heq

/-- A poll in terms of what it and those before have seen. -/
theorem After.poll_eq (h : s.After grace polls) (p : Poll) :
    s.poll grace p =
      match p.copy with
      | some result =>
        (.ready result, { s with flags := ⟨(polls ++ [p]).any Poll.seesEof, p.moves⟩ })
      | none =>
        let s := { s with flags := ⟨(polls ++ [p]).any Poll.seesEof, false⟩ }
        if (polls ++ [p]).any Poll.seesEof = false then (.pending, s)
        else if polls.any Poll.seesEof = false ∨ p.moves = true then
          match p.now.checkedAdd grace with
          | none => (.panicked, s)
          | some timer => { s with timer, armed := true }.pollTimer p.now
        else s.pollTimer p.now := by
  have hflags : p.calls.foldl Flags.call s.flags =
      ⟨(polls ++ [p]).any Poll.seesEof, p.moves⟩ := by
    rw [Flags.foldl_call, h.activity, h.eof]
    simp [Poll.seesEof, Poll.moves]
  rw [poll, hflags]
  cases p.copy with
  | some result => rfl
  | none => simp [h.armed, Bool.or_eq_true]

theorem nanos_of_checkedAdd {now : Instant} (h : now.checkedAdd grace = some timer) :
    timer.nanos = now.nanos + grace.nanos := by
  unfold Instant.checkedAdd at h
  split_ifs at h
  rw [← Option.some.inj h]

theorem of_step (h : s.step grace p = some t) : s.poll grace p = (.pending, t) := by
  unfold step at h
  split at h
  next u hu => rw [hu, Option.some.inj h]
  next => cases h

theorem pollTimer_eq_pending {now : Instant} (h : s.pollTimer now = (.pending, t)) : t = s := by
  exact (congrArg Prod.snd h).symm

/-- A poll that comes to nothing keeps what is known of the state. -/
theorem After.step (h : s.After grace polls) (hstep : s.step grace p = some t) :
    t.After grace (polls ++ [p]) := by
  have hpoll := of_step hstep
  rw [h.poll_eq] at hpoll
  cases hcopy : p.copy with
  | some result => simp [hcopy] at hpoll
  | none =>
    simp only [hcopy] at hpoll
    split_ifs at hpoll with hnone hrestart
    · -- no EOF yet
      obtain rfl := (Prod.mk.inj hpoll).2
      have hbefore : polls.any Poll.seesEof = false := by simp_all
      refine ⟨rfl, rfl, h.armed.trans (hbefore.trans hnone.symm), fun first after hfirst => ?_⟩
      rw [hfirst.any] at hnone
      cases hnone
    · -- the timer is set back
      split at hpoll
      · cases hpoll
      next timer htimer =>
        obtain rfl := pollTimer_eq_pending hpoll
        have heof : (polls ++ [p]).any Poll.seesEof = true := Bool.of_not_eq_false hnone
        refine ⟨rfl, rfl, heof.symm, fun first after hfirst => ?_⟩
        obtain ⟨-, rfl, rfl⟩ | ⟨after', hfirst', rfl⟩ := firstEof_concat hfirst
        · exact nanos_of_checkedAdd htimer
        · have hmoves : p.moves = true := hrestart.resolve_left (by simp [hfirst'.any])
          rw [restart_concat, if_pos hmoves]
          exact nanos_of_checkedAdd htimer
    · -- the timer runs on
      obtain ⟨hbefore, hmoves⟩ := not_or.mp hrestart
      obtain rfl := pollTimer_eq_pending hpoll
      have heof : (polls ++ [p]).any Poll.seesEof = true := Bool.of_not_eq_false hnone
      refine ⟨rfl, rfl, h.armed.trans ?_, fun first after hfirst => ?_⟩
      · rw [heof]
        simpa using hbefore
      · obtain ⟨hno, -⟩ | ⟨after', hfirst', rfl⟩ := firstEof_concat hfirst
        · exact absurd hno hbefore
        · rw [restart_concat, if_neg hmoves]
          exact h.timer first after' hfirst'

theorem after_of_run (h : run (step grace) (start timer) polls = some s) : s.After grace polls :=
  run_invariant (I := fun polls s => s.After grace polls) after_start
    (fun _ _ _ _ hs hstep => hs.step hstep) h

/-- What a poll comes to. With a positive grace period a timer that has just been set back is not
ready. -/
theorem After.outcome_eq (h : s.After grace polls) (hgrace : 0 < grace.nanos) (p : Poll) :
    (s.poll grace p).1 =
      match p.copy with
      | some result => .ready result
      | none =>
        if (polls ++ [p]).any Poll.seesEof = false then .pending
        else if polls.any Poll.seesEof = false ∨ p.moves = true then
          if (p.now.checkedAdd grace).isNone then .panicked else .pending
        else if s.timer.nanos ≤ p.now.nanos then .halfCloseTimeout
        else .pending := by
  rw [h.poll_eq]
  cases p.copy with
  | some result => rfl
  | none =>
    dsimp only
    split_ifs
    · rfl
    · next hnone =>
      rw [Option.isNone_iff_eq_none.mp hnone]
    · next hsome =>
      obtain ⟨timer, htimer⟩ :=
        Option.ne_none_iff_exists'.mp (mt Option.isNone_iff_eq_none.mpr hsome)
      have hnanos := nanos_of_checkedAdd htimer
      rw [htimer]
      exact if_neg (by dsimp only; omega)
    · next hready => exact if_pos hready
    · next hready => exact if_neg hready

/-- **The half-close timer.** Let the grace period be positive and let any polls have come to
nothing. The next poll returns the half-close timeout if and only if the copy is not finished in it,
an EOF has been seen in it or before, no byte moves in it, it is not the one that first sees the
EOF, and the grace period has passed since the last poll after that EOF in which bytes moved, or
since the EOF if there was none. A finished copy always wins, and without an EOF there is no
timeout. -/
theorem halfCloseTimeout_iff (hgrace : 0 < grace.nanos)
    (hrun : run (step grace) (start timer) polls = some s) (p : Poll) :
    ((s.poll grace p).1 = .halfCloseTimeout ↔
      p.copy = none ∧ (∃ q ∈ polls ++ [p], q.seesEof = true) ∧ p.moves = false ∧
        ¬((∀ q ∈ polls, q.seesEof = false) ∧ p.seesEof = true) ∧
        ∃ first after, FirstEof polls first after ∧
          (restart first after).now.nanos + grace.nanos ≤ p.now.nanos) ∧
    (∀ result, p.copy = some result → (s.poll grace p).1 = .ready result) ∧
    ((∀ q ∈ polls ++ [p], q.seesEof = false) → (s.poll grace p).1 ≠ .halfCloseTimeout) := by
  have h := after_of_run hrun
  rw [h.outcome_eq hgrace]
  refine ⟨⟨fun htimeout => ?_, ?_⟩, fun result hcopy => by rw [hcopy], fun hno htimeout => ?_⟩
  · cases hcopy : p.copy with
    | some result => simp [hcopy] at htimeout
    | none =>
      simp only [hcopy] at htimeout
      split_ifs at htimeout with hnone hrestart _ hready
      obtain ⟨hbefore, hmoves⟩ := not_or.mp hrestart
      obtain ⟨first, after, hfirst⟩ := exists_firstEof (Bool.of_not_eq_false hbefore)
      rw [h.timer first after hfirst] at hready
      have hseen : ∃ q ∈ polls, q.seesEof = true := List.any_eq_true.mp hfirst.any
      refine ⟨rfl, ?_, Bool.of_not_eq_true hmoves, fun hthis => ?_, first, after, hfirst, hready⟩
      · obtain ⟨q, hq, hsees⟩ := hseen
        exact ⟨q, List.mem_append_left [p] hq, hsees⟩
      · obtain ⟨q, hq, hsees⟩ := hseen
        rw [hthis.1 q hq] at hsees
        cases hsees
  · rintro ⟨hcopy, -, hmoves, -, first, after, hfirst, hpassed⟩
    have hready : s.timer.nanos ≤ p.now.nanos := by rwa [h.timer first after hfirst]
    simp [hcopy, List.any_append, hfirst.any, hmoves, hready]
  · cases hcopy : p.copy with
    | some result => simp [hcopy] at htimeout
    | none =>
      have hnone : (polls ++ [p]).any Poll.seesEof = false :=
        List.any_eq_false.mpr fun q hq => by simp [hno q hq]
      simp only [hcopy, hnone, if_true] at htimeout
      cases htimeout

/-- A poll at the given second. -/
def pollAt (secs : ℕ) (h : secs < 2 ^ 63) (calls : List StreamCall) : Poll where
  now := ⟨secs * 10 ^ 9, by omega⟩
  calls

/-- The client has closed its half. -/
def clientClosed : Poll := pollAt 5 (by decide) [.pollRead 8192 (some (.ok 0))]

/-- The last bytes of the server. -/
def lastBytes : Poll :=
  pollAt 9 (by decide) [.pollRead 8192 (some (.ok 40)), .pollWrite (some (.ok 40))]

/-- With a grace period of 10 seconds the poll at second 18 waits on, and the one at second 19 times
out. -/
theorem halfCloseTimeout_iff_tenSeconds :
    ∃ s, run (step ⟨10 * 10 ^ 9, by decide⟩) (start ⟨0, by decide⟩) [clientClosed, lastBytes] =
        some s ∧
      (s.poll ⟨10 * 10 ^ 9, by decide⟩ (pollAt 18 (by decide) [])).1 = .pending ∧
      (s.poll ⟨10 * 10 ^ 9, by decide⟩ (pollAt 19 (by decide) [])).1 = .halfCloseTimeout := by
  have hfirst : FirstEof [clientClosed, lastBytes] clientClosed [lastBytes] :=
    ⟨[], rfl, by simp, rfl⟩
  obtain ⟨s, hrun, hpending⟩ : ∃ s,
      run (step ⟨10 * 10 ^ 9, by decide⟩) (start ⟨0, by decide⟩) [clientClosed, lastBytes] =
        some s ∧
      (s.poll ⟨10 * 10 ^ 9, by decide⟩ (pollAt 18 (by decide) [])).1 = .pending :=
    ⟨_, rfl, by decide⟩
  refine ⟨s, hrun, hpending, (halfCloseTimeout_iff (by decide) hrun _).1.mpr ?_⟩
  refine ⟨rfl, ⟨clientClosed, List.mem_cons_self, rfl⟩, rfl, ?_, _, _, hfirst, by decide⟩
  exact fun h => absurd h.2 (by decide)

end Relay

end XtpRs.Tcp
