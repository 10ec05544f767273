import XtpRs.Lib.Words
import XtpRs.Net.Addr

/-!
# Port lists of the transparent proxy scripts

`normalize_port_list` of `contrib/usr/libexec/xtp-rs/common.sh` reads the ports from the
configuration of the system: the text is split at blanks, commas and semicolons, what is not a
number between 1 and 65535 is dropped with a warning, and repetitions are dropped. The result is
written into an `nft` set, which fails to load if one element is not a port.

The range is tested with the integer comparisons of the shell's `test` command. A comparison with an
integer outside the native range of the shell is neither true nor false but fails with an error
status; the script reads both as "not out of range". `TestCommand` is a `test` command, given by the
largest integer it reads.

## Main definitions

* `normalizePortList`: the output of `normalize_port_list` and its warnings.
* `PortListExact`: the output is the list of the ports of the input, without repetitions.

## Main results

* `normalizePortList_out`: the numbers the two tests let pass, in the order of the input and each
  once, are the output.
* `normalizePortList_exact_iff`: the output is exact if and only if no number of the input is too
  large for the `test` command.
-/

namespace XtpRs.Scripts

open Lib

/-! ### The shell -/

/-- A `test` command of a shell, with at least the ports in its native range. -/
structure TestCommand where
  nativeMax : ℕ
  le_nativeMax : 65535 ≤ nativeMax

/-- The exit status of a `test` command: 0, 1, or above 1. -/
inductive TestStatus
  | success
  | failure
  | error
deriving DecidableEq, Repr

/-- The pattern `[0-9]`. -/
def isDigit (c : UInt8) : Bool :=
  0x30 ≤ c && c ≤ 0x39

/-- The value of a text of decimal digits. -/
def decimalValue (s : Str) : ℕ :=
  s.foldl (fun v c => v * 10 + (c.toNat - 0x30)) 0

namespace TestCommand

variable (sh : TestCommand)

/-- An integer operand, if it is one within the native range. -/
def integer (s : Str) : Option ℕ :=
  if s ≠ [] ∧ s.all isDigit ∧ decimalValue s ≤ sh.nativeMax then some (decimalValue s) else none

/-- A binary integer primary with a number of the script as its second operand. -/
def compare (rel : ℕ → ℕ → Bool) (s : Str) (n : ℕ) : TestStatus :=
  match sh.integer s with
  | some v => if rel v n then .success else .failure
  | none => .error

/-- `[ s -lt n ]`. -/
def lt (s : Str) (n : ℕ) : TestStatus := sh.compare (fun v n => decide (v < n)) s n

/-- `[ s -gt n ]`. -/
def gt (s : Str) (n : ℕ) : TestStatus := sh.compare (fun v n => decide (n < v)) s n

end TestCommand

/-- `tr ',;\t\r\n' '     '`. -/
def trSeparators (c : UInt8) : UInt8 :=
  if c ∈ [0x2c, 0x3b, 0x09, 0x0d, 0x0a] then 0x20 else c

/-- `tr ':' ' '`. -/
def trColon (c : UInt8) : UInt8 :=
  if c = 0x3a then 0x20 else c

/-- What a command substitution gives: the output without the newlines at its end. -/
def commandSubstitution (output : Str) : Str :=
  output.rdropWhile fun c => c == 0x0a

/-- `${s#:}`. -/
def removeColon (s : Str) : Str :=
  if s.head? = some 0x3a then s.tail else s

/-! ### The function -/

/-- The warnings of the script. -/
inductive PortWarning
  /-- `invalid port ignored` -/
  | invalid (p : Str)
  /-- `port out of range (1-65535) ignored` -/
  | outOfRange (p : Str)
deriving DecidableEq, Repr

/-- The variable `_out` and the warnings written so far. -/
structure PortLoop where
  out : Str := []
  warnings : List PortWarning := []
deriving DecidableEq, Repr

/-- The body of the loop over the tokens. -/
def portLoopStep (sh : TestCommand) (st : PortLoop) (p : Str) : PortLoop :=
  if p.any (fun c => !isDigit c) || p.isEmpty then
    { st with warnings := st.warnings ++ [.invalid p] }
  else if sh.lt p 1 = .success ∨ sh.gt p 65535 = .success then
    { st with warnings := st.warnings ++ [.outOfRange p] }
  -- `case ":$_out:" in *":$_p:"*)`
  else if 0x3a :: (p ++ [0x3a]) <:+: 0x3a :: (st.out ++ [0x3a]) then st
  else { st with out := st.out ++ 0x3a :: p }

/-- `normalize_port_list` -/
def normalizePortList (sh : TestCommand) (raw default : Str) : PortLoop :=
  let raw := if raw.isEmpty then default else raw
  let raw := commandSubstitution ((raw ++ [0x0a]).map trSeparators)
  let st := (words (· == 0x20) raw).foldl (portLoopStep sh) {}
  { st with out := (removeColon st.out ++ [0x0a]).map trColon }

/-! ### What the output should be -/

/-- Space, tab, carriage return, newline, comma and semicolon. -/
def isPortSeparator (c : UInt8) : Bool :=
  c ∈ [0x20, 0x09, 0x0d, 0x0a, 0x2c, 0x3b]

/-- The tokens of a text. -/
def portTokens (text : Str) : List Str :=
  words isPortSeparator text

/-- The text that is read: the default if there is none. -/
def portInput (raw default : Str) : Str :=
  if raw = [] then default else raw

/-- A token of digits only. -/
def IsNumber (p : Str) : Prop :=
  p ≠ [] ∧ ∀ c ∈ p, isDigit c

/-- A decimal number between 1 and 65535. -/
structure IsPort (p : Str) : Prop where
  number : IsNumber p
  pos : 1 ≤ decimalValue p
  le : decimalValue p ≤ 65535

instance (p : Str) : Decidable (IsNumber p) :=
  inferInstanceAs (Decidable (_ ∧ _))

instance (p : Str) : Decidable (IsPort p) :=
  decidable_of_iff (IsNumber p ∧ 1 ≤ decimalValue p ∧ decimalValue p ≤ 65535)
    ⟨fun h => ⟨h.1, h.2.1, h.2.2⟩, fun h => ⟨h.number, h.pos, h.le⟩⟩

/-- A list of tokens as it is printed: spaces between them and a newline. -/
def portListing (l : List Str) : Str :=
  [(0x20 : UInt8)].intercalate l ++ [0x0a]

/-- The output has ports only, and it lists the ports of the input in the order of their first
occurrence. -/
structure PortListExact (raw default out : Str) : Prop where
  isPort : ∀ p ∈ portTokens out, IsPort p
  eq : out = portListing ((portTokens (portInput raw default)).filter (IsPort ·)).eraseDups

/-! ### The tokens -/

theorem trSeparators_eq_space_iff (c : UInt8) :
    (trSeparators c == 0x20) = isPortSeparator c := by
  unfold trSeparators isPortSeparator
  split_ifs with h
  · have hc : c ∈ [0x20, 0x09, 0x0d, 0x0a, 0x2c, 0x3b] := by
      simp only [List.mem_cons, List.not_mem_nil, or_false] at h ⊢
      tauto
    simp [hc]
  · have hc : c ∈ [0x20, 0x09, 0x0d, 0x0a, 0x2c, 0x3b] ↔ c = 0x20 := by
      simp only [List.mem_cons, List.not_mem_nil, or_false] at h ⊢
      tauto
    rw [decide_eq_decide.mpr hc]
    rfl

theorem trSeparators_of_not {c : UInt8} (hc : isPortSeparator c = false) :
    trSeparators c = c := by
  unfold isPortSeparator at hc
  unfold trSeparators
  rw [if_neg]
  simp only [List.mem_cons, decide_eq_false_iff_not, not_or] at hc ⊢
  exact ⟨hc.2.2.2.2.1, hc.2.2.2.2.2.1, hc.2.1, hc.2.2.1, hc.2.2.2.1, hc.2.2.2.2.2.2⟩

theorem trSeparators_ne_newline (c : UInt8) : trSeparators c ≠ 0x0a := by
  unfold trSeparators
  split_ifs with h
  · decide
  · rintro rfl
    exact h (by decide)

/-- The command substitution finds no newline at the end: `tr` has replaced them all. -/
theorem commandSubstitution_map_trSeparators (t : Str) :
    commandSubstitution (t.map trSeparators) = t.map trSeparators := by
  rw [commandSubstitution, List.rdropWhile_eq_self_iff]
  intro hne heq
  obtain ⟨c, -, hc⟩ := List.mem_map.mp (List.getLast_mem hne)
  exact trSeparators_ne_newline c (hc.trans (eq_of_beq heq))

/-- The loop is over the tokens of the text. -/
theorem words_commandSubstitution (t : Str) :
    words (· == 0x20) (commandSubstitution ((t ++ [0x0a]).map trSeparators)) = portTokens t := by
  rw [commandSubstitution_map_trSeparators,
    words_map trSeparators _ trSeparators_eq_space_iff fun c => trSeparators_of_not]
  have h := words_append_cons (p := isPortSeparator) (c := 0x0a) (by decide) t []
  rwa [words_nil, List.append_nil] at h

/-! ### The two tests -/

/-- What the loop lets pass: a number in the range or beyond what the `test` command reads. -/
def Passes (sh : TestCommand) (p : Str) : Prop :=
  IsNumber p ∧ (1 ≤ decimalValue p ∧ decimalValue p ≤ 65535 ∨ sh.nativeMax < decimalValue p)

instance (sh : TestCommand) (p : Str) : Decidable (Passes sh p) :=
  inferInstanceAs (Decidable (_ ∧ _))

theorem IsPort.passes {p : Str} (h : IsPort p) (sh : TestCommand) : Passes sh p :=
  ⟨h.number, .inl ⟨h.pos, h.le⟩⟩

/-- What passes is a port, unless the `test` command cannot read it. -/
theorem Passes.isPort {sh : TestCommand} {p : Str} (h : Passes sh p)
    (hle : decimalValue p ≤ sh.nativeMax) : IsPort p := by
  obtain ⟨hnum, hpos, hmax⟩ | ⟨-, hlt⟩ := and_or_left.mp h
  · exact ⟨hnum, hpos, hmax⟩
  · exact absurd hle (not_le.mpr hlt)

theorem isNumber_iff (p : Str) :
    IsNumber p ↔ ¬(p.any (fun c => !isDigit c) || p.isEmpty) = true := by
  simp only [IsNumber, Bool.or_eq_true, List.any_eq_true, List.isEmpty_iff, not_or, not_exists,
    not_and, Bool.not_eq_true', Bool.not_eq_false, ne_eq]
  exact and_comm

theorem integer_of_isNumber (sh : TestCommand) {p : Str} (hp : IsNumber p) :
    sh.integer p = if decimalValue p ≤ sh.nativeMax then some (decimalValue p) else none := by
  have hall : p.all isDigit = true := List.all_eq_true.mpr hp.2
  simp only [TestCommand.integer, hp.1, hall, ne_eq, not_false_eq_true, true_and]

/-- Neither test succeeds on a port, nor on a number that is too large for them. -/
theorem tests_iff (sh : TestCommand) {p : Str} (hp : IsNumber p) :
    (sh.lt p 1 = .success ∨ sh.gt p 65535 = .success) ↔ ¬Passes sh p := by
  have hmax := sh.le_nativeMax
  simp only [Passes, hp, true_and, TestCommand.lt, TestCommand.gt, TestCommand.compare,
    integer_of_isNumber sh hp]
  split_ifs with hle
  · simp only [decide_eq_true_eq]
    split_ifs <;> simp <;> omega
  · simp only [or_self, false_iff, not_not]
    exact .inr (not_le.mp hle)

theorem portLoopStep_out (sh : TestCommand) (st : PortLoop) (p : Str) :
    (portLoopStep sh st p).out =
      if Passes sh p ∧ ¬0x3a :: (p ++ [0x3a]) <:+: 0x3a :: (st.out ++ [0x3a])
      then st.out ++ 0x3a :: p else st.out := by
  unfold portLoopStep
  by_cases hp : IsNumber p
  · rw [if_neg ((isNumber_iff p).mp hp), if_congr (tests_iff sh hp) rfl rfl]
    split_ifs with hpass hinfix <;> simp_all
  · have hnot : ¬Passes sh p := fun h => hp h.1
    rw [if_pos (not_not.mp fun h => hp ((isNumber_iff p).mpr h))]
    simp [hnot]

/-! ### The loop -/

/-- The tokens that pass, each once. -/
def passing (sh : TestCommand) (tokens : List Str) : List Str :=
  (tokens.filter (Passes sh ·)).eraseDups

theorem mem_passing {sh : TestCommand} {tokens : List Str} {p : Str} :
    p ∈ passing sh tokens ↔ p ∈ tokens ∧ Passes sh p := by
  rw [passing, List.mem_eraseDups, List.mem_filter, decide_eq_true_eq]

theorem passing_concat (sh : TestCommand) (tokens : List Str) (p : Str) :
    passing sh (tokens ++ [p]) =
      if Passes sh p ∧ p ∉ passing sh tokens then passing sh tokens ++ [p]
      else passing sh tokens := by
  rw [passing, List.filter_append, List.eraseDups_append, ← passing]
  by_cases hp : Passes sh p
  · by_cases hmem : p ∈ tokens <;>
      simp [hp, hmem, mem_passing, List.removeAll, List.eraseDups_cons]
  · simp [hp, List.removeAll]

/-- Only digits stand in a number. -/
theorem areWords_of_isNumber {sep : UInt8 → Bool} (hsep : ∀ c, isDigit c → sep c = false)
    {l : List Str} (hl : ∀ p ∈ l, IsNumber p) : AreWords sep l :=
  fun p hp => ⟨(hl p hp).1, fun c hc => hsep c ((hl p hp).2 c hc)⟩

theorem isNumber_of_mem_passing {sh : TestCommand} {tokens : List Str} :
    ∀ p ∈ passing sh tokens, IsNumber p :=
  fun _ hp => (mem_passing.mp hp).2.1

theorem beq_colon_of_isDigit (c : UInt8) (hc : isDigit c) : (c == 0x3a) = false := by
  refine beq_eq_false_iff_ne.mpr ?_
  rintro rfl
  exact absurd hc (by decide)

theorem isPortSeparator_of_isDigit (c : UInt8) (hc : isDigit c) : isPortSeparator c = false := by
  refine decide_eq_false fun hmem => ?_
  simp only [List.mem_cons, List.not_mem_nil, or_false] at hmem
  obtain rfl | rfl | rfl | rfl | rfl | rfl := hmem <;> exact absurd hc (by decide)

/-- The variable `_out` is the list of the tokens that have passed, a colon in front of each. -/
theorem foldl_portLoopStep_out (sh : TestCommand) (tokens : List Str) :
    (tokens.foldl (portLoopStep sh) {}).out = prefixed 0x3a (passing sh tokens) := by
  induction tokens using List.reverseRecOn with
  | nil => rfl
  | append_singleton tokens p ih =>
      rw [List.foldl_append, List.foldl_cons, List.foldl_nil, portLoopStep_out, ih,
        passing_concat]
      by_cases hp : Passes sh p
      · have hwords : AreWords (fun c => c == 0x3a) (passing sh tokens) :=
          areWords_of_isNumber beq_colon_of_isDigit isNumber_of_mem_passing
        have hmem := infix_prefixed_iff (p := fun c : UInt8 => c == 0x3a) (beq_self_eq_true _)
          hwords hp.1.1 fun c hc => beq_colon_of_isDigit c (hp.1.2 c hc)
        simp only [hmem]
        split_ifs
        · rw [prefixed_concat]
        · rfl
      · simp [hp]

/-! ### The output -/

theorem removeColon_prefixed (l : List Str) :
    removeColon (prefixed 0x3a l) = [(0x3a : UInt8)].intercalate l := by
  cases l with
  | nil => rfl
  | cons w l =>
      rw [prefixed_cons_eq_intercalate]
      rfl

/-- The output lists the tokens that pass. -/
theorem normalizePortList_out (sh : TestCommand) (raw default : Str) :
    (normalizePortList sh raw default).out =
      portListing (passing sh (portTokens (portInput raw default))) := by
  have hinput : (if raw.isEmpty then default else raw) = portInput raw default := by
    rw [portInput]
    exact if_congr List.isEmpty_iff rfl rfl
  have hkeep : ∀ p ∈ passing sh (portTokens (portInput raw default)), ∀ c ∈ p, trColon c = c :=
    fun p hp c hc =>
      if_neg (beq_eq_false_iff_ne.mp
        (beq_colon_of_isDigit c ((isNumber_of_mem_passing p hp).2 c hc)))
  simp only [normalizePortList, hinput, words_commandSubstitution, foldl_portLoopStep_out,
    removeColon_prefixed]
  rw [List.map_append, map_intercalate hkeep]
  rfl

/-- The elements of a listing are the tokens listed. -/
theorem portTokens_portListing {l : List Str} (hl : ∀ p ∈ l, IsNumber p) :
    portTokens (portListing l) = l := by
  rw [portTokens, portListing, words_append_cons (by decide), words_nil, List.append_nil,
    words_intercalate (by decide) (areWords_of_isNumber isPortSeparator_of_isDigit hl)]

/-- The output lists the ports of the input and nothing else, if and only if the `test` command can
read every number of the input. -/
theorem normalizePortList_exact_iff (sh : TestCommand) (raw default : Str) :
    PortListExact raw default (normalizePortList sh raw default).out ↔
      ∀ p ∈ portTokens (portInput raw default), IsNumber p → decimalValue p ≤ sh.nativeMax := by
  have hout := normalizePortList_out sh raw default
  constructor
  · intro h p hp hnum
    by_contra hlt
    have hpass : p ∈ passing sh (portTokens (portInput raw default)) :=
      mem_passing.mpr ⟨hp, hnum, .inr (not_le.mp hlt)⟩
    have hport : IsPort p := h.isPort p (by
      rwa [hout, portTokens_portListing isNumber_of_mem_passing])
    exact hlt (hport.le.trans sh.le_nativeMax)
  · intro h
    have hfilter : passing sh (portTokens (portInput raw default)) =
        ((portTokens (portInput raw default)).filter (IsPort ·)).eraseDups := by
      rw [passing, List.filter_congr fun p hp => ?_]
      exact decide_eq_decide.mpr
        ⟨fun hpass => hpass.isPort (h p hp hpass.1), fun hport => hport.passes sh⟩
    refine ⟨fun p hp => ?_, by rw [hout, hfilter]⟩
    rw [hout, portTokens_portListing isNumber_of_mem_passing] at hp
    obtain ⟨hmem, hpass⟩ := mem_passing.mp hp
    exact hpass.isPort (h p hmem hpass.1)

/-- A number beyond the native range is in the output. -/
theorem not_portListExact_of_large :
    ¬PortListExact [0x39, 0x39, 0x39, 0x39, 0x39, 0x39, 0x39, 0x39, 0x39, 0x39, 0x39, 0x39, 0x39,
        0x39, 0x39, 0x39, 0x39, 0x39, 0x39, 0x39] [0x38, 0x30]
      (normalizePortList ⟨2 ^ 63 - 1, by norm_num⟩ [0x39, 0x39, 0x39, 0x39, 0x39, 0x39, 0x39, 0x39,
        0x39, 0x39, 0x39, 0x39, 0x39, 0x39, 0x39, 0x39, 0x39, 0x39, 0x39, 0x39] [0x38, 0x30]).out :=
  fun h => by
    have hport := h.isPort (List.replicate 20 0x39) (by decide)
    exact absurd hport.le (by decide)

end XtpRs.Scripts
