import Mathlib.Data.List.Basic

/-!
# Chains of packet filter rules

A packet filter takes a packet through the rules of a chain. A rule is a row of statements: tests,
actions that change the packet or refuse it, and verdicts. Its first statement that does not hold
ends the rule, but what the statements before it have changed stays changed, and the next rule is
taken. A verdict ends the evaluation with a value, leaves the chain, or goes through another chain
and, when that one is left, on behind the rule. What no rule decides is decided by the policy of the
chain the packet came in by.

## Main definitions

* `Verdict`, `Statement`: the language of rules, over packets `π`, final values `ν` and chains `χ`.
* `evalRule`, `evalRules`, `evalChain`, `evalBase`: its meaning.
* `guardRule`, `changeRule`: rules of tests and one verdict, with a change before it or not.

## Main results

* `evalBase_guardRules`: a block of rules that leave the chain is one condition.
* `evalBase_guardRule_final`, `evalBase_guardRule_jump`, `evalBase_changeRule`: the other rules.
-/

namespace XtpRs.Lib

/-- What a rule says about a packet whose statements all hold. -/
inductive Verdict (ν χ : Type*)
  /-- The evaluation ends. -/
  | final (value : ν)
  /-- The chain is left. -/
  | ret
  /-- The packet goes through another chain. -/
  | jump (chain : χ)

/-- A statement of a rule. -/
inductive Statement (π ν χ : Type*)
  | test (holds : π → Bool)
  /-- Changes the packet, or does not hold. -/
  | act (change : π → Option π)
  | verdict (v : Verdict ν χ)

/-- A rule is a row of statements. -/
abbrev Rule (π ν χ : Type*) := List (Statement π ν χ)

variable {π ν χ : Type*}

/-- A rule: the packet as it is left, and the verdict if the rule comes to one. -/
def evalRule : Rule π ν χ → π → π × Option (Verdict ν χ)
  | [], p => (p, none)
  | .test holds :: rule, p => if holds p then evalRule rule p else (p, none)
  | .act change :: rule, p =>
    match change p with
    | some p' => evalRule rule p'
    | none => (p, none)
  | .verdict v :: _, p => (p, some v)

/-- The rules of a chain, where `call` is the evaluation of the chains that are jumped to. -/
def evalRules (call : χ → π → π × Option ν) : List (Rule π ν χ) → π → π × Option ν
  | [], p => (p, none)
  | rule :: rules, p =>
    match evalRule rule p with
    | (p', none) => evalRules call rules p'
    | (p', some (.final value)) => (p', some value)
    | (p', some .ret) => (p', none)
    | (p', some (.jump chain)) =>
      match call chain p' with
      | (p'', some value) => (p'', some value)
      | (p'', none) => evalRules call rules p''

/-- The rules of a chain with jumps up to a depth; a deeper one does nothing. -/
def evalChain (chains : χ → List (Rule π ν χ)) : ℕ → List (Rule π ν χ) → π → π × Option ν
  | 0, rules => evalRules (fun _ p => (p, none)) rules
  | depth + 1, rules => evalRules (fun chain p => evalChain chains depth (chains chain) p) rules

/-- A chain that packets come in by: what is left undecided falls to its policy. -/
def evalBase (call : χ → π → π × Option ν) (policy : ν) (rules : List (Rule π ν χ)) (p : π) :
    π × ν :=
  let r := evalRules call rules p
  (r.1, r.2.getD policy)

/-- A rule of tests and one verdict. -/
def guardRule (tests : List (π → Bool)) (v : Verdict ν χ) : Rule π ν χ :=
  tests.map .test ++ [.verdict v]

/-- A rule of tests, a change and a final verdict. -/
def changeRule (tests : List (π → Bool)) (change : π → π) (value : ν) : Rule π ν χ :=
  tests.map .test ++ [.act fun p => some (change p), .verdict (.final value)]

/-! ### One rule -/

theorem evalRule_tests (tests : List (π → Bool)) (rule : Rule π ν χ) (p : π) :
    evalRule (tests.map .test ++ rule) p =
      if tests.all (· p) then evalRule rule p else (p, none) := by
  induction tests with
  | nil => rfl
  | cons holds tests ih =>
    rw [List.map_cons, List.cons_append, evalRule, ih, List.all_cons]
    cases holds p <;> rfl

theorem evalRule_guardRule (tests : List (π → Bool)) (v : Verdict ν χ) (p : π) :
    evalRule (guardRule tests v) p = if tests.all (· p) then (p, some v) else (p, none) :=
  evalRule_tests tests _ p

/-- A chain is gone through in the same way at every depth, but for the chains it jumps to. -/
theorem exists_evalChain_eq (chains : χ → List (Rule π ν χ)) (depth : ℕ)
    (rules : List (Rule π ν χ)) :
    ∃ call, evalChain chains depth rules = evalRules call rules := by
  cases depth with
  | zero => exact ⟨_, rfl⟩
  | succ depth => exact ⟨_, rfl⟩

/-! ### A chain with its policy -/

section Base

variable (call : χ → π → π × Option ν) (policy : ν) (tests : List (π → Bool))
  (rules : List (Rule π ν χ)) (p : π)

theorem evalBase_nil : evalBase call policy [] p = (p, policy) := rfl

/-- A rule without a verdict hands on what it has changed. -/
theorem evalBase_cons_none {rule : Rule π ν χ} {p' : π} (h : evalRule rule p = (p', none)) :
    evalBase call policy (rule :: rules) p = evalBase call policy rules p' := by
  simp only [evalBase, evalRules, h]

theorem evalBase_cons_final {rule : Rule π ν χ} {p' : π} {value : ν}
    (h : evalRule rule p = (p', some (.final value))) :
    evalBase call policy (rule :: rules) p = (p', value) := by
  simp only [evalBase, evalRules, h, Option.getD_some]

theorem evalBase_guardRule_ret :
    evalBase call policy (guardRule tests .ret :: rules) p =
      if tests.all (· p) then (p, policy) else evalBase call policy rules p := by
  simp only [evalBase, evalRules, evalRule_guardRule]
  cases tests.all (· p) <;> rfl

theorem evalBase_guardRule_final (value : ν) :
    evalBase call policy (guardRule tests (.final value) :: rules) p =
      if tests.all (· p) then (p, value) else evalBase call policy rules p := by
  simp only [evalBase, evalRules, evalRule_guardRule]
  cases tests.all (· p) <;> rfl

theorem evalBase_changeRule (change : π → π) (value : ν) :
    evalBase call policy (changeRule tests change value :: rules) p =
      if tests.all (· p) then (change p, value) else evalBase call policy rules p := by
  simp only [evalBase, evalRules, changeRule, evalRule_tests]
  cases tests.all (· p) <;> rfl

/-- A jump to a chain that leaves the packet as it is and either decides as the policy would or
returns. -/
theorem evalBase_guardRule_jump {chain : χ} {decides : Bool}
    (hcall : call chain p = (p, if decides then some policy else none)) :
    evalBase call policy (guardRule tests (.jump chain) :: rules) p =
      if tests.all (· p) && decides then (p, policy) else evalBase call policy rules p := by
  simp only [evalBase, evalRules, evalRule_guardRule]
  cases tests.all (· p) with
  | false => rfl
  | true =>
    simp only [if_true, hcall, Bool.true_and]
    cases decides <;> rfl

/-- A block of rules that leave the chain is one condition. -/
theorem evalBase_guardRules (guards : List (List (π → Bool))) :
    evalBase call policy (guards.map (guardRule · .ret) ++ rules) p =
      if guards.any fun tests => tests.all (· p) then (p, policy)
      else evalBase call policy rules p := by
  induction guards with
  | nil => rfl
  | cons tests guards ih =>
    rw [List.map_cons, List.cons_append, evalBase_guardRule_ret, ih, List.any_cons]
    cases tests.all (· p) <;> rfl

end Base

end XtpRs.Lib
