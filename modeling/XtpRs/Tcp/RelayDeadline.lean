import XtpRs.Config.Validate
import XtpRs.Tcp.Relay

/-!
# Deadlines of the relay

The deadline of the half-close timer is the clock's reading plus the grace period, which is
`half_close_timeout` of the configuration in seconds. `validate` puts no limit on it, and `+` on
`Instant` panics when the sum does not fit; `reset_idle_deadline` of `src/udp/mod.rs` makes the same
sum with `checked_add`. The sum is made in the polls that set the timer back: the one that first
sees an EOF, and those after it in which bytes move.

## Main definitions

* `halfCloseGrace`: the grace period of a configuration.
* `SetsTimer`: the polls that compute a deadline.

## Main results

* `Relay.deadline_representable_iff`: the polls that do not panic.
-/

namespace XtpRs.Tcp

open Lib

/-- `Duration::from_secs`. -/
def Duration.fromSecs (secs : UInt64) : Duration where
  nanos := secs.toNat * 10 ^ 9
  lt := Nat.mul_lt_mul_of_pos_right secs.toNat_lt (by decide)

/-- `half_close_grace`. -/
def halfCloseGrace (secs : UInt64) : Option Duration :=
  if 0 < secs then some (.fromSecs secs) else none

/-- The seconds of an instant. -/
def Instant.secs (t : Instant) : ℕ := t.nanos / 10 ^ 9

/-- After the polls made so far, the poll `p` computes a deadline: the copy is not finished, an EOF
has been seen, and either none before or bytes move. -/
def SetsTimer (polls : List Poll) (p : Poll) : Prop :=
  p.copy = none ∧ (∃ q ∈ polls ++ [p], q.seesEof = true) ∧
    ((∀ q ∈ polls, q.seesEof = false) ∨ p.moves = true)

/-- A number of seconds can be added if the sum of the seconds fits. -/
theorem isNone_checkedAdd_fromSecs (t : Instant) (secs : UInt64) :
    (t.checkedAdd (.fromSecs secs)).isNone = true ↔ 2 ^ 63 ≤ t.secs + secs.toNat := by
  unfold Instant.checkedAdd Duration.fromSecs Instant.secs
  split_ifs with hfits
  · simp only [Option.isNone_some, Bool.false_eq_true, false_iff]
    dsimp only at hfits
    omega
  · simp only [Option.isNone_none, true_iff]
    dsimp only at hfits
    omega

namespace Relay

variable {c : Config} {polls : List Poll} {p : Poll} {s : Relay} {timer : Instant}

/-- Without a grace period nothing is added to the clock. -/
theorem pollCopy_none (s : Relay) (p : Poll) : (s.pollCopy none p).1 ≠ .panicked := by
  rw [pollCopy]
  cases p.copy with
  | some result => exact nofun
  | none => exact nofun

/-- After polls that came to nothing, a poll panics exactly if it computes a deadline that does not
fit. -/
theorem After.panicked_iff {grace : Duration} (h : s.After grace polls) (hgrace : 0 < grace.nanos)
    (p : Poll) :
    (s.poll grace p).1 = .panicked ↔
      SetsTimer polls p ∧ (p.now.checkedAdd grace).isNone = true := by
  have hbefore : (∀ q ∈ polls, q.seesEof = false) ↔ polls.any Poll.seesEof = false := by simp
  have hseen : (∃ q ∈ polls ++ [p], q.seesEof = true) ↔
      (polls ++ [p]).any Poll.seesEof ≠ false := by
    rw [ne_eq, Bool.not_eq_false, List.any_eq_true]
  rw [h.outcome_eq hgrace, SetsTimer, hbefore, hseen]
  cases p.copy with
  | some result => simp
  | none =>
    dsimp only
    split_ifs with hnone hrestart hoverflow hready
    · simp [hnone]
    · exact ⟨fun _ => ⟨⟨rfl, hnone, hrestart⟩, hoverflow⟩, fun _ => rfl⟩
    · exact ⟨nofun, fun hno => absurd hno.2 hoverflow⟩
    · exact ⟨nofun, fun hno => absurd hno.1.2.2 hrestart⟩
    · exact ⟨nofun, fun hno => absurd hno.1.2.2 hrestart⟩

/-- **Deadlines that fit.** Whatever polls have come to nothing, the next one does not panic if and
only if the half-close timeout is off, or the poll computes no deadline, or the seconds of the
clock and of the timeout add up to less than `2^63`. -/
theorem deadline_representable_iff
    (hrun : run (stepCopy (halfCloseGrace c.halfCloseTimeout)) (start timer) polls = some s)
    (p : Poll) :
    (s.pollCopy (halfCloseGrace c.halfCloseTimeout) p).1 ≠ .panicked ↔
      c.halfCloseTimeout = 0 ∨ ¬SetsTimer polls p ∨
        p.now.secs + c.halfCloseTimeout.toNat < 2 ^ 63 := by
  by_cases hoff : c.halfCloseTimeout = 0
  · rw [hoff]
    exact ⟨fun _ => .inl rfl, fun _ => pollCopy_none s p⟩
  · have hsecs : 0 < c.halfCloseTimeout := UInt64.pos_iff_ne_zero.mpr hoff
    have hgrace : halfCloseGrace c.halfCloseTimeout = some (.fromSecs c.halfCloseTimeout) :=
      if_pos hsecs
    have hpos : 0 < (Duration.fromSecs c.halfCloseTimeout).nanos :=
      Nat.mul_pos (UInt64.lt_iff_toNat_lt.mp hsecs) (by decide)
    rw [hgrace] at hrun ⊢
    have hafter : s.After (.fromSecs c.halfCloseTimeout) polls := after_of_run hrun
    change (s.poll (.fromSecs c.halfCloseTimeout) p).1 ≠ .panicked ↔ _
    rw [ne_eq, hafter.panicked_iff hpos, isNone_checkedAdd_fromSecs]
    simp only [hoff, false_or, not_and_or, not_le]

end Relay

/-- One upstream, and the greatest timeout that a file can hold. -/
def endlessGrace : Config where
  upstream := [{ id := [0x61], addr := .v4 ⟨127, 0, 0, 1⟩ 1080 }]
  halfCloseTimeout := 9223372036854775807

namespace Relay

/-- The poll of second 1 first sees an EOF. -/
theorem not_deadline_representable :
    ¬∀ c : Config, c.validate (fun _ => none) = .ok () → c.halfCloseTimeout.toNat < 2 ^ 63 →
      ∀ timer polls s p,
        run (stepCopy (halfCloseGrace c.halfCloseTimeout)) (start timer) polls = some s →
        0 < p.now.nanos → (s.pollCopy (halfCloseGrace c.halfCloseTimeout) p).1 ≠ .panicked := by
  intro hclaim
  have hpoll := hclaim endlessGrace (by decide +kernel) (by decide) ⟨0, by decide⟩ [] _
    (pollAt 1 (by decide) [.pollRead 8192 (some (.ok 0))]) rfl (by decide)
  exact hpoll (by decide)

/-- With the default of 600 seconds the same poll computes a deadline that fits. -/
theorem deadline_representable_iff_default :
    ((start ⟨0, by decide⟩).pollCopy (halfCloseGrace 600)
      (pollAt 1 (by decide) [.pollRead 8192 (some (.ok 0))])).1 ≠ .panicked := by
  have hrun : run (stepCopy (halfCloseGrace 600)) (start ⟨0, by decide⟩) [] =
      some (start ⟨0, by decide⟩) := rfl
  exact (deadline_representable_iff (c := { endlessGrace with halfCloseTimeout := 600 }) hrun _).mpr
    (.inr (.inr (by decide)))

end Relay

end XtpRs.Tcp
