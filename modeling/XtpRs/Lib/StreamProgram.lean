import Mathlib

/-!
# Programs that read a stream in pieces

A byte stream arrives in pieces, and one read gets at most one of them. A program that asks for a
number of bytes reads on until it has them all. What it then returns depends only on what the pieces
add up to. `Parses unread p lang` says so for a program `p` with the language `lang`: on a stream
that begins with a word of the language the program returns the value of that word and leaves the
rest unread, and on every other stream it fails. Languages are built as programs are, one rule for
each construct.

## Main definitions

* `Pieces.readExact`: a read of a number of bytes.
* `Parses`: what a program does on the streams of all contents.
* `Emits`: what a program that returns has added to a log.

## Main results

* `Parses.bind` and its companions: the rules by which the language of a program is found.
* `Emits.bind` and its companions: the same for what it has written.
-/

namespace XtpRs.Lib

/-- What is still to come of a stream, as the pieces in which it arrives before it ends. -/
abbrev Pieces (α : Type*) := List (List α)

namespace Pieces

variable {α : Type*}

/-- Reads piece by piece until `n` elements are there; `none` when the stream ends before. -/
def readExact : ℕ → Pieces α → Option (List α × Pieces α)
  | 0, ps => some ([], ps)
  | _ + 1, [] => none
  | n + 1, p :: ps =>
    if n + 1 ≤ p.length then some (p.take (n + 1), p.drop (n + 1) :: ps)
    else (readExact (n + 1 - p.length) ps).map fun r => (p ++ r.1, r.2)

/-- However the stream is cut, a read of the length of what it begins with returns just that. -/
theorem readExact_of_flatten (ps : Pieces α) {data rest : List α} (h : ps.flatten = data ++ rest) :
    ∃ ps', readExact data.length ps = some (data, ps') ∧ ps'.flatten = rest := by
  induction ps generalizing data with
  | nil =>
    obtain ⟨rfl, rfl⟩ : data = [] ∧ rest = [] := by simpa [eq_comm] using h
    exact ⟨[], by simp [readExact], rfl⟩
  | cons p ps ih =>
    rw [List.flatten_cons] at h
    cases hn : data.length with
    | zero =>
      obtain rfl := List.eq_nil_of_length_eq_zero hn
      exact ⟨p :: ps, by simp [readExact], by simpa using h⟩
    | succ n =>
      rw [readExact, ← hn]
      split_ifs with hle
      · -- the piece is long enough
        obtain ⟨more, rfl⟩ : data <+: p := List.prefix_of_prefix_length_le
          ⟨rest, h.symm⟩ (List.prefix_append p ps.flatten) hle
        refine ⟨more :: ps, by simp, ?_⟩
        rw [List.append_assoc] at h
        exact List.append_cancel_left h
      · obtain ⟨more, rfl⟩ : p <+: data := List.prefix_of_prefix_length_le
          (List.prefix_append p ps.flatten) ⟨rest, h.symm⟩ (by omega)
        rw [List.append_assoc] at h
        obtain ⟨ps', hread, hrest⟩ := ih (List.append_cancel_left h)
        refine ⟨ps', ?_, hrest⟩
        rw [List.length_append, Nat.add_sub_cancel_left, hread]
        rfl

/-- A read of more than the stream ever brings comes to its end. -/
theorem readExact_eq_none {n : ℕ} {ps : Pieces α} (h : ps.flatten.length < n) :
    readExact n ps = none := by
  induction ps generalizing n with
  | nil =>
    cases n with
    | zero => simp at h
    | succ n => rfl
  | cons p ps ih =>
    rw [List.flatten_cons, List.length_append] at h
    cases n with
    | zero => omega
    | succ n =>
      rw [readExact, if_neg (by omega), ih (by omega)]
      rfl

end Pieces

/-- The program `p` parses the language `lang`, of words that each stand for a value: on a stream
that begins with a word it returns the value and leaves the rest unread, and on a stream that begins
with no word it fails. -/
structure Parses {σ ε α β : Type} (unread : σ → List β) (p : StateT σ (Except ε) α)
    (lang : α → List β → Prop) : Prop where
  returns : ∀ {a word rest s}, lang a word → unread s = word ++ rest →
    ∃ s', p s = .ok (a, s') ∧ unread s' = rest
  fails : ∀ {s}, (∀ a word rest, lang a word → unread s ≠ word ++ rest) → ∃ e, p s = .error e

namespace Parses

variable {σ ε α β γ : Type} {unread : σ → List β} {p : StateT σ (Except ε) α}
  {lang lang' : α → List β → Prop}

theorem congr (h : Parses unread p lang) (hlang : ∀ a word, lang' a word ↔ lang a word) :
    Parses unread p lang' where
  returns hword := h.returns ((hlang _ _).mp hword)
  fails hno := h.fails fun a word rest hword => hno a word rest ((hlang a word).mpr hword)

/-- A program that reads nothing. -/
theorem pure (a : α) :
    Parses unread (Pure.pure a : StateT σ (Except ε) α) fun a' word => a' = a ∧ word = [] where
  returns := by
    rintro a' word rest s ⟨rfl, rfl⟩ hs
    exact ⟨s, rfl, hs⟩
  fails hno := absurd rfl (hno a [] _ ⟨rfl, rfl⟩)

/-- A program that changes the state without reading. -/
theorem modify (f : σ → σ) (hf : ∀ s, unread (f s) = unread s) :
    Parses unread (modify f : StateT σ (Except ε) Unit) fun _ word => word = [] where
  returns := by
    rintro a word rest s rfl hs
    exact ⟨f s, rfl, (hf s).trans hs⟩
  fails hno := absurd rfl (hno () [] _ rfl)

/-- A computation that does not touch the stream. -/
theorem lift (x : Except ε α) :
    Parses unread (liftM x : StateT σ (Except ε) α) fun a word => x = .ok a ∧ word = [] where
  returns := by
    rintro a word rest s ⟨rfl, rfl⟩ hs
    exact ⟨s, rfl, hs⟩
  fails := by
    intro s hno
    cases x with
    | error e => exact ⟨e, rfl⟩
    | ok a => exact absurd rfl (hno a [] _ ⟨rfl, rfl⟩)

/-- A program that fails has the empty language. -/
theorem throw (e : ε) :
    Parses unread (throw e : StateT σ (Except ε) α) fun _ _ => False where
  returns := False.elim
  fails _ := ⟨e, rfl⟩

/-- One program after the other parses the words that are put together from those of both. -/
theorem bind {g : α → StateT σ (Except ε) γ} {langs : α → γ → List β → Prop}
    (hp : Parses unread p lang) (hg : ∀ a word, lang a word → Parses unread (g a) (langs a)) :
    Parses unread (p >>= g) fun c word =>
      ∃ a first second, word = first ++ second ∧ lang a first ∧ langs a c second where
  returns := by
    rintro c word rest s ⟨a, first, second, rfl, hfirst, hsecond⟩ hs
    rw [List.append_assoc] at hs
    obtain ⟨s', hok, hs'⟩ := hp.returns hfirst hs
    obtain ⟨s'', hok', hs''⟩ := (hg a first hfirst).returns hsecond hs'
    refine ⟨s'', ?_, hs''⟩
    change (p s >>= fun r => g r.1 r.2) = _
    rw [hok]
    exact hok'
  fails := by
    intro s hno
    -- either the first program fails, or it returns and the second one fails on what it left
    change ∃ e, (p s >>= fun r => g r.1 r.2) = .error e
    by_cases hfirst : ∃ a first rest, lang a first ∧ unread s = first ++ rest
    · obtain ⟨a, first, rest, hfirst, hs⟩ := hfirst
      obtain ⟨s', hok, hs'⟩ := hp.returns hfirst hs
      have hno' : ∀ c second rest', langs a c second → unread s' ≠ second ++ rest' := by
        intro c second rest' hsecond heq
        refine hno c (first ++ second) rest' ⟨a, first, second, rfl, hfirst, hsecond⟩ ?_
        rw [hs, ← hs', heq, List.append_assoc]
      obtain ⟨e, herror⟩ := (hg a first hfirst).fails hno'
      exact ⟨e, by rw [hok]; exact herror⟩
    · obtain ⟨e, herror⟩ := hp.fails fun a first rest hword hs => hfirst ⟨a, first, rest, hword, hs⟩
      exact ⟨e, by rw [herror]; rfl⟩

theorem ite {c : Prop} [Decidable c] {q : StateT σ (Except ε) α} (hp : c → Parses unread p lang)
    (hq : ¬c → Parses unread q lang) : Parses unread (if c then p else q) lang := by
  split_ifs with h
  · exact hp h
  · exact hq h

/-- A check that fails on a condition, before the rest of the program. -/
theorem guard {c : Prop} [Decidable c] {e : ε} {g : γ → StateT σ (Except ε) α}
    (hp : ¬c → Parses unread p lang) :
    Parses unread (if c then MonadExcept.throw e >>= g else p) fun a word => ¬c ∧ lang a word := by
  split_ifs with h
  · exact ⟨fun hword => absurd h hword.1, fun _ => ⟨e, rfl⟩⟩
  · exact (hp h).congr fun a word => by simp [h]

end Parses

/-- Whenever the program `p` returns, it has added `data` to the log that the state carries. -/
def Emits {σ ε α β : Type} (log : σ → List β) (p : StateT σ (Except ε) α) (data : List β) : Prop :=
  ∀ s a s', p s = .ok (a, s') → log s' = log s ++ data

namespace Emits

variable {σ ε α β γ : Type} {log : σ → List β} {p : StateT σ (Except ε) α} {data data' : List β}

/-- A program that keeps the log. -/
theorem of_keeps (h : ∀ s a s', p s = .ok (a, s') → log s' = log s) : Emits log p [] :=
  fun s a s' hp => (h s a s' hp).trans (List.append_nil _).symm

theorem pure (a : α) : Emits log (Pure.pure a : StateT σ (Except ε) α) [] :=
  of_keeps fun s b s' h => by cases h; rfl

theorem lift (x : Except ε α) : Emits log (liftM x : StateT σ (Except ε) α) [] :=
  of_keeps fun s b s' h => by
    cases x with
    | error e => cases h
    | ok a => cases h; rfl

/-- A program that fails may claim to have added anything. -/
theorem throw (e : ε) : Emits log (throw e : StateT σ (Except ε) α) data :=
  fun _ _ _ h => (nomatch h)

theorem bind {g : α → StateT σ (Except ε) γ} (hp : Emits log p data)
    (hg : ∀ a, Emits log (g a) data') : Emits log (p >>= g) (data ++ data') := by
  intro s c s'' h
  change (p s >>= fun r => g r.1 r.2) = _ at h
  cases hs : p s with
  | error e =>
    rw [hs] at h
    cases h
  | ok r =>
    obtain ⟨a, s'⟩ := r
    rw [hs] at h
    rw [hg a s' c s'' h, hp s a s' hs, List.append_assoc]

/-- A first part that adds nothing. -/
theorem bind_nil {g : α → StateT σ (Except ε) γ} (hp : Emits log p [])
    (hg : ∀ a, Emits log (g a) data) : Emits log (p >>= g) data :=
  hp.bind hg

/-- A second part that adds nothing. -/
theorem bind_nil_right {g : α → StateT σ (Except ε) γ} (hp : Emits log p data)
    (hg : ∀ a, Emits log (g a) []) : Emits log (p >>= g) data :=
  List.append_nil data ▸ hp.bind hg

theorem ite {c : Prop} [Decidable c] {q : StateT σ (Except ε) α} (hp : Emits log p data)
    (hq : Emits log q data) : Emits log (if c then p else q) data := by
  split_ifs
  · exact hp
  · exact hq

/-- A check that fails on a condition, before the rest of the program. -/
theorem guard {c : Prop} [Decidable c] {e : ε} {g : γ → StateT σ (Except ε) α}
    (hp : Emits log p data) :
    Emits log (if c then MonadExcept.throw e >>= g else p) data :=
  ite (fun _ _ _ h => (nomatch h)) hp

end Emits

end XtpRs.Lib
