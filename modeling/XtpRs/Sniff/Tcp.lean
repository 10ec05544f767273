import XtpRs.Net.Addr

/-!
# TCP sniffers

`src/sniff/mod.rs`: a TCP sniffer classifies the first bytes of a client, and `sniff_with_engine`
peeks at them again and again, each time at more of them, until the sniffer has decided.

How many bytes of the client have arrived at each peek is not under control of the program. It is
given as a list of rounds, with the number of bytes that had arrived at the peek of the round and at
each peek while waiting for more. The list ends where the total timeout strikes; a list of peeks
while waiting ends at their deadline.

## Main definitions

* `Sniffer`, `SniffAttempt`.
* `sniffWithEngine`: the host found in the bytes of a client, for a list of rounds.

## Main results

* `exists_prefix_of_sniffWithEngine`: a host found is one for a prefix of the bytes.
* `sniffWithEngine_unique`: a stable sniffer finds one host, whatever the rounds are.
-/

namespace XtpRs.Sniff

/-- `SniffError`. -/
inductive SniffError
  | peekEmpty
  | protocolNotMatched
  | noTarget
  | parseError
  | invalidHostname
  | tooLarge
  deriving DecidableEq, Repr

/-- `SniffAttempt`. -/
inductive SniffAttempt
  | matched (host : Str)
  | needMore
  | abort (error : SniffError)
  deriving DecidableEq, Repr

/-- The trait `Sniffer`. The durations are spent in the rounds. -/
structure Sniffer where
  initialPeekLen : ℕ
  maxPeekLen : ℕ
  maxRetries : ℕ
  classify : Bytes → ℕ → SniffAttempt

/-- `SniffConfig`. -/
structure SniffConfig where
  tcpPeekBufferSize : ℕ

/-- The bytes of the client that have arrived at a peek; `none` is an I/O error. -/
abbrev Peek := Option ℕ

/-- A round of the loop: its peek, and the peeks while waiting for more. -/
structure Round where
  peek : Peek
  polls : List Peek

/-- `peek_client_prefix` of at most `maxLen` bytes. -/
def peekClientPrefix (client : Bytes) (peek : Peek) (maxLen : ℕ) : Option Bytes :=
  peek.map fun arrived => (client.take arrived).take maxLen

/-- `wait_for_more_peek_data`: `none` is an I/O error, `some none` the deadline. -/
def waitForMorePeekData (client : Bytes) (maxLen lastLen : ℕ) :
    List Peek → Option (Option Bytes)
  | [] => some none
  | peek :: rest =>
    match peekClientPrefix client peek maxLen with
    | none => none
    | some buf =>
      if lastLen < buf.length then some (some buf)
      else waitForMorePeekData client maxLen lastLen rest

/-- `should_retry_sniff`. -/
def shouldRetrySniff (attempt maxRetries curLen lastPeekLen : ℕ) : Bool :=
  if maxRetries ≤ attempt then false
  else if curLen = 0 then false
  else decide (lastPeekLen < curLen)

/-- `usize::MAX`. -/
def usizeMax : ℕ := 2 ^ 64 - 1

/-- The loop of `sniff_with_engine`. -/
def sniffLoop (engine : Sniffer) (client : Bytes) (maxLen : ℕ) : ℕ → ℕ → ℕ → List Round → Option Str
  | _, _, _, [] => none
  | peekLen, attempt, lastPeekLen, round :: rest =>
    match peekClientPrefix client round.peek peekLen with
    | none => none
    | some buf =>
      match engine.classify buf maxLen with
      | .matched host => some host
      | .abort _ => none
      | .needMore =>
        if shouldRetrySniff attempt engine.maxRetries buf.length lastPeekLen then
          let nextLen := min (min (peekLen * 2) usizeMax) maxLen
          if nextLen ≤ peekLen then none
          else
            match waitForMorePeekData client nextLen buf.length round.polls with
            | some (some _) => sniffLoop engine client maxLen nextLen (attempt + 1) buf.length rest
            | _ => none
        else none

/-- `max_len` of `sniff_with_engine`. -/
def sniffMaxLen (engine : Sniffer) (cfg : SniffConfig) : ℕ :=
  min (max engine.maxPeekLen 1) (max cfg.tcpPeekBufferSize 1)

/-- `sniff_with_engine`. -/
def sniffWithEngine (engine : Sniffer) (cfg : SniffConfig) (client : Bytes) (rounds : List Round) :
    Option Str :=
  let maxLen := sniffMaxLen engine cfg
  let peekLen := min (max engine.initialPeekLen 1) maxLen
  sniffLoop engine client maxLen peekLen 0 0 rounds

/-! ### Stable sniffers -/

/-- What the sniffer has decided on a non-empty prefix of at most `maxLen` bytes, it decides on
every extension of at most `maxLen` bytes. -/
def Sniffer.Stable (engine : Sniffer) (maxLen : ℕ) : Prop :=
  ∀ p s, p ≠ [] → p <+: s → s.length ≤ maxLen → engine.classify p maxLen ≠ .needMore →
    engine.classify s maxLen = engine.classify p maxLen

variable {engine : Sniffer} {client : Bytes} {maxLen : ℕ} {host : Str}

theorem exists_prefix_of_sniffLoop {peekLen attempt lastPeekLen : ℕ} {rounds : List Round}
    (hpeek : peekLen ≤ maxLen)
    (h : sniffLoop engine client maxLen peekLen attempt lastPeekLen rounds = some host) :
    ∃ p, p <+: client ∧ p.length ≤ maxLen ∧ engine.classify p maxLen = .matched host := by
  induction rounds generalizing peekLen attempt lastPeekLen with
  | nil => cases h
  | cons round rest ih =>
    rw [sniffLoop] at h
    cases hbuf : peekClientPrefix client round.peek peekLen with
    | none =>
      rw [hbuf] at h
      cases h
    | some buf =>
      rw [hbuf] at h
      dsimp only at h
      have hpre : buf <+: client ∧ buf.length ≤ maxLen := by
        obtain ⟨arrived, -, rfl⟩ := Option.map_eq_some_iff.mp hbuf
        refine ⟨(List.take_prefix _ _).trans (List.take_prefix _ _), ?_⟩
        exact (List.length_take_le _ _).trans hpeek
      cases hattempt : engine.classify buf maxLen with
      | matched host' =>
        rw [hattempt] at h
        obtain rfl : host' = host := Option.some.inj h
        exact ⟨buf, hpre.1, hpre.2, hattempt⟩
      | abort error =>
        rw [hattempt] at h
        cases h
      | needMore =>
        rw [hattempt] at h
        dsimp only at h
        split_ifs at h
        split at h
        · exact ih (min_le_right _ _) h
        · cases h

/-- **Where a host comes from.** It is found in a prefix of the bytes of the client, of at most
`max_len` bytes. -/
theorem exists_prefix_of_sniffWithEngine {cfg : SniffConfig} {rounds : List Round}
    (h : sniffWithEngine engine cfg client rounds = some host) :
    ∃ p, p <+: client ∧ p.length ≤ sniffMaxLen engine cfg ∧
      engine.classify p (sniffMaxLen engine cfg) = .matched host :=
  exists_prefix_of_sniffLoop (min_le_right _ _) h

/-- **Segmentation does not matter.** Two runs over the same bytes that find a host find the same
one, if the sniffer is stable and finds nothing in no bytes. -/
theorem sniffWithEngine_unique {cfg : SniffConfig} {rounds rounds' : List Round} {host' : Str}
    (hstable : engine.Stable (sniffMaxLen engine cfg))
    (hnil : ∀ host, engine.classify [] (sniffMaxLen engine cfg) ≠ .matched host)
    (h : sniffWithEngine engine cfg client rounds = some host)
    (h' : sniffWithEngine engine cfg client rounds' = some host') : host = host' := by
  have hle : ∀ {p p' : Bytes} {host host' : Str}, p <+: p' →
      p'.length ≤ sniffMaxLen engine cfg →
      engine.classify p (sniffMaxLen engine cfg) = .matched host →
      engine.classify p' (sniffMaxLen engine cfg) = .matched host' → host = host' := by
    intro p p' host host' hpp hlength hp hp'
    have hne : p ≠ [] := by
      rintro rfl
      exact hnil host hp
    have hsame := hstable p p' hne hpp hlength (by rw [hp]; exact fun h => by cases h)
    rw [hp, hp'] at hsame
    exact (SniffAttempt.matched.inj hsame).symm
  obtain ⟨p, hpre, hlength, hp⟩ := exists_prefix_of_sniffWithEngine h
  obtain ⟨p', hpre', hlength', hp'⟩ := exists_prefix_of_sniffWithEngine h'
  obtain hpp | hpp := List.prefix_or_prefix_of_prefix hpre hpre'
  · exact hle hpp hlength' hp hp'
  · exact (hle hpp hlength hp' hp).symm

end XtpRs.Sniff
