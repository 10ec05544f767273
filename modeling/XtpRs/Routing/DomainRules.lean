import XtpRs.Routing.Domain

/-!
# Compiled domain rules and the rules themselves

`DomainSet::compile` and `compile_geosite` of `src/state.rs` sort the rules of a list into sets, and
a domain is looked up in them label by label. Both agree with a comparison of the domain with one
rule after the other: with the patterns of the configuration, and with `geosite_domain_match`.

## Main definitions

* `geositeDomainMatch`: one rule of the geosite index.
* `matchesRounds`: the loop of `matches_canonical`, cut off after some rounds.

## Main results

* `mem_dotTails_iff`: what follows a dot of a domain.
* `matchesCanonical_compile_iff`: a `DomainSet` matches what one of its patterns matches.
* `compiledGeositeContains_iff`: the compiled index contains what one of the rules matches.
-/

namespace XtpRs.Routing

open Lib

/-- A property that each round of a fold adds to holds at the end if it held before or one of the
rounds brought it. -/
theorem foldl_iff_of_step {σ α : Type*} {Q : σ → Prop} {P : α → Prop} {f : σ → α → σ}
    (hstep : ∀ s a, Q (f s a) ↔ Q s ∨ P a) (l : List α) (s : σ) :
    Q (l.foldl f s) ↔ Q s ∨ ∃ a ∈ l, P a := by
  induction l generalizing s with
  | nil => simp
  | cons a l ih => rw [List.foldl_cons, ih, hstep, List.exists_mem_cons_iff, or_assoc]

/-- The parts after a dot are the suffixes behind a dot. -/
theorem mem_dotTails_iff {s domain : Str} : s ∈ dotTails domain ↔ (dot :: s) <:+ domain := by
  induction domain with
  | nil => simp [dotTails]
  | cons b rest ih =>
    rw [List.suffix_cons_iff, ← ih, dotTails]
    by_cases hb : (b == dot) = true
    · rw [if_pos hb, List.mem_cons, beq_iff_eq.mp hb, List.cons_inj_right]
    · have hne : dot ≠ b := fun h => hb (beq_iff_eq.mpr h.symm)
      rw [if_neg hb]
      simp [hne]

/-- A suffix in canonical form matches the canonical domain itself and what follows its dots. -/
theorem domainMatchesSuffix_iff_mem {domain s : Str} (hs : canonicalDomain s = s) :
    domainMatchesSuffix domain s = true ↔
      s ∈ canonicalDomain domain :: dotTails (canonicalDomain domain) := by
  rw [domainMatchesSuffix_iff, hs, List.mem_cons, mem_dotTails_iff, eq_comm]

/-! ### The `force_*_domains` lists -/

/-- The loop of `matches_canonical`, cut off after some rounds: `none` if it has not returned by
then. -/
def matchesRounds (suffixes : List Str) : ℕ → Str → Option Bool
  | 0, _ => none
  | rounds + 1, candidate =>
    if suffixes.contains candidate then some true
    else
      match candidate.findIdx? (· == dot) with
      | some pos => matchesRounds suffixes rounds (candidate.drop (pos + 1))
      | none => some false

/-- The loop returns after no more rounds than the domain has bytes, and one. -/
theorem matchesRounds_eq_some (suffixes : List Str) {rounds : ℕ} {candidate : Str}
    (hrounds : candidate.length < rounds) :
    matchesRounds suffixes rounds candidate = some (matchesLoop suffixes rounds candidate) := by
  induction rounds generalizing candidate with
  | zero => omega
  | succ rounds ih =>
    rw [matchesRounds, matchesLoop]
    by_cases hmem : suffixes.contains candidate = true
    · rw [if_pos hmem, hmem, Bool.true_or]
    · rw [if_neg hmem, Bool.eq_false_iff.mpr hmem, Bool.false_or]
      cases hpos : candidate.findIdx? (· == dot) with
      | none => rfl
      | some pos =>
        have hlt : pos < candidate.length := (List.findIdx?_eq_some_iff_getElem.mp hpos).1
        refine ih ?_
        rw [List.length_drop]
        omega

namespace DomainSet

/-- The exact domain that a pattern stands for. -/
theorem mem_exact_compilePattern (set : DomainSet) (raw s : Str) :
    s ∈ (set.compilePattern raw).exact ↔
      s ∈ set.exact ∨
        raw.head? ≠ some dot ∧ canonicalDomain raw ≠ [] ∧ canonicalDomain raw = s := by
  unfold compilePattern
  split
  · dsimp only
    split_ifs <;> simp [dot]
  · rename_i hraw
    have hhead : raw.head? ≠ some dot := by
      intro hdot
      obtain ⟨rest, rfl⟩ := List.head?_eq_some_iff.mp hdot
      exact hraw rest rfl
    dsimp only
    split_ifs with hempty
    · simp [List.isEmpty_iff.mp hempty]
    · have hne : canonicalDomain raw ≠ [] := fun h => hempty (List.isEmpty_iff.mpr h)
      simp [hhead, hne, or_comm, eq_comm]

/-- The suffix that a pattern stands for. -/
theorem mem_suffixes_compilePattern (set : DomainSet) (raw s : Str) :
    s ∈ (set.compilePattern raw).suffixes ↔
      s ∈ set.suffixes ∨
        ∃ stripped, raw = dot :: stripped ∧ canonicalDomain stripped ≠ [] ∧
          canonicalDomain stripped = s := by
  unfold compilePattern
  split
  · rename_i stripped
    dsimp only
    split_ifs with hempty
    · simp [dot, List.isEmpty_iff.mp hempty]
    · have hne : canonicalDomain stripped ≠ [] := fun h => hempty (List.isEmpty_iff.mpr h)
      rw [List.mem_insert_iff, or_comm]
      refine or_congr_right ⟨fun h => ⟨stripped, rfl, hne, h.symm⟩, ?_⟩
      rintro ⟨stripped', hstripped, -, rfl⟩
      rw [(List.cons.inj hstripped).2]
  · rename_i hraw
    have hnot : ∀ stripped, raw ≠ dot :: stripped := fun stripped => hraw stripped
    dsimp only
    split_ifs <;> simp [hnot]

theorem mem_exact_compile {domains : List Str} {s : Str} : s ∈ (compile domains).exact ↔
    ∃ raw ∈ domains,
      raw.head? ≠ some dot ∧ canonicalDomain raw ≠ [] ∧ canonicalDomain raw = s := by
  have hstep := fun (set : DomainSet) raw => mem_exact_compilePattern set raw s
  refine (foldl_iff_of_step (Q := fun set : DomainSet => s ∈ set.exact) hstep domains {}).trans ?_
  simp

theorem mem_suffixes_compile {domains : List Str} {s : Str} : s ∈ (compile domains).suffixes ↔
    ∃ raw ∈ domains, ∃ stripped, raw = dot :: stripped ∧ canonicalDomain stripped ≠ [] ∧
      canonicalDomain stripped = s := by
  have hstep := fun (set : DomainSet) raw => mem_suffixes_compilePattern set raw s
  refine (foldl_iff_of_step (Q := fun set : DomainSet => s ∈ set.suffixes)
    hstep domains {}).trans ?_
  simp

end DomainSet

/-- **Forced domains.** A set matches a domain exactly if one of its patterns does: `.s` with the
domains that are `s` or end in it behind a dot, any other pattern with the domain of the same
canonical form. The loop over the labels returns on every string. -/
theorem matchesCanonical_compile_iff (domains : List Str) :
    (∀ domain, (DomainSet.compile domains).matchesCanonical (canonicalDomain domain) = true ↔
      ∃ raw ∈ domains,
        (∃ stripped, raw = dot :: stripped ∧ canonicalDomain stripped ≠ [] ∧
          domainMatchesSuffix domain (canonicalDomain stripped) = true ∧
          (canonicalDomain domain = canonicalDomain stripped ∨
            (dot :: canonicalDomain stripped) <:+ canonicalDomain domain)) ∨
        (raw.head? ≠ some dot ∧ canonicalDomain raw ≠ [] ∧
          canonicalDomain raw = canonicalDomain domain)) ∧
    ∀ candidate, ∃ rounds, matchesRounds (DomainSet.compile domains).suffixes rounds candidate =
      some (matchesLoop (DomainSet.compile domains).suffixes (candidate.length + 1) candidate) := by
  refine ⟨fun domain => ?_, fun candidate => ⟨_, matchesRounds_eq_some _ (Nat.lt_succ_self _)⟩⟩
  rw [DomainSet.matchesCanonical, Bool.or_eq_true, List.contains_iff_mem,
    matchesLoop_eq_true_iff _ (Nat.lt_succ_self _), DomainSet.mem_exact_compile]
  constructor
  · rintro (⟨raw, hraw, hexact⟩ | ⟨s, hs, hsuffix⟩)
    · exact ⟨raw, hraw, .inr hexact⟩
    · obtain ⟨raw, hraw, stripped, hstripped, hne, rfl⟩ := DomainSet.mem_suffixes_compile.mp hsuffix
      have hmatch := (domainMatchesSuffix_iff_mem (canonicalDomain_idem stripped)).mpr hs
      have htail := (domainMatchesSuffix_iff domain (canonicalDomain stripped)).mp hmatch
      rw [canonicalDomain_idem] at htail
      exact ⟨raw, hraw, .inl ⟨stripped, hstripped, hne, hmatch, htail⟩⟩
  · rintro ⟨raw, hraw, ⟨stripped, hstripped, hne, hmatch, -⟩ | hexact⟩
    · exact .inr ⟨_, (domainMatchesSuffix_iff_mem (canonicalDomain_idem stripped)).mp hmatch,
        DomainSet.mem_suffixes_compile.mpr ⟨raw, hraw, stripped, hstripped, hne, rfl⟩⟩
    · exact .inl ⟨raw, hraw, hexact⟩

/-! ### The geosite index -/

/-- `geosite_domain_match`. -/
def geositeDomainMatch (rule : GeositeDomain) (domain : Str) : Bool :=
  let domain := canonicalDomain domain
  let value := canonicalDomain rule.value
  match GeositeDomainType.ofInt32 rule.type with
  | .plain => !value.isEmpty && decide (value <:+: domain)
  | .regex => false
  | .domain => domainMatchesSuffix domain value
  | .full => !value.isEmpty && domain == value
  | .unknown _ => false

namespace CompiledGeositeTag

/-- What a compiled tag contains, without the order of the lookups. -/
def Contains (ct : CompiledGeositeTag) (domain : Str) : Prop :=
  domain ∈ ct.exact ∨ (∃ s ∈ domain :: dotTails domain, s ∈ ct.suffixes) ∨
    ∃ p ∈ ct.plain, p <:+: domain

theorem contains_insert_exact (ct : CompiledGeositeTag) (value domain : Str) :
    Contains { ct with exact := ct.exact.insert value } domain ↔
      ct.Contains domain ∨ domain = value := by
  simp only [Contains, List.mem_insert_iff]
  rw [or_assoc, or_comm]

theorem contains_insert_suffixes (ct : CompiledGeositeTag) (value domain : Str) :
    Contains { ct with suffixes := ct.suffixes.insert value } domain ↔
      ct.Contains domain ∨ value ∈ domain :: dotTails domain := by
  simp only [Contains, List.mem_insert_iff, and_or_left, exists_or, exists_eq_right]
  rw [or_assoc, or_left_comm, or_comm]

theorem contains_append_plain (ct : CompiledGeositeTag) (value domain : Str) :
    Contains { ct with plain := ct.plain ++ [value] } domain ↔
      ct.Contains domain ∨ value <:+: domain := by
  simp only [Contains, List.mem_append, List.mem_singleton, or_and_right, exists_or,
    exists_eq_left, or_assoc]

/-- A suffix with empty canonical form matches no domain but those with empty canonical form. -/
theorem domainMatchesSuffix_eq_false {domain value : Str} (hdomain : canonicalDomain domain ≠ [])
    (hvalue : canonicalDomain value = []) : domainMatchesSuffix domain value = false := by
  rw [Bool.eq_false_iff, Ne, domainMatchesSuffix_iff, hvalue]
  rintro (h | ⟨init, hinit⟩)
  · exact hdomain h
  · refine (isCanonical_canonicalDomain domain).last ?_
    rw [← hinit, List.getLast?_append]
    rfl

/-- A rule adds the domains that it matches. -/
theorem contains_addRule_iff (ct : CompiledGeositeTag) (rule : GeositeDomain) {domain : Str}
    (hdomain : canonicalDomain domain ≠ []) :
    (ct.addRule rule).Contains (canonicalDomain domain) ↔
      ct.Contains (canonicalDomain domain) ∨ geositeDomainMatch rule domain = true := by
  unfold addRule geositeDomainMatch
  dsimp only
  split_ifs with hempty
  · rw [List.isEmpty_iff] at hempty
    have hsuffix : domainMatchesSuffix (canonicalDomain domain) (canonicalDomain rule.value) =
        false := by
      refine domainMatchesSuffix_eq_false ?_ ?_
      · rwa [canonicalDomain_idem]
      · rw [canonicalDomain_idem, hempty]
    rw [hsuffix, hempty]
    split <;> simp
  · have hne : (canonicalDomain rule.value).isEmpty = false := Bool.eq_false_iff.mpr hempty
    rw [hne]
    cases GeositeDomainType.ofInt32 rule.type with
    | plain => simp [contains_append_plain]
    | regex => simp
    | domain =>
      have hmatch : domainMatchesSuffix (canonicalDomain domain) (canonicalDomain rule.value) =
          true ↔ canonicalDomain rule.value ∈
            canonicalDomain domain :: dotTails (canonicalDomain domain) := by
        rw [domainMatchesSuffix_iff_mem (canonicalDomain_idem rule.value), canonicalDomain_idem]
      rw [contains_insert_suffixes, hmatch]
    | full => simp [contains_insert_exact]
    | unknown value => simp

/-- The tag of some rules contains what one of them matches. -/
theorem contains_foldl_addRule_iff (rules : List GeositeDomain) {domain : Str}
    (hdomain : canonicalDomain domain ≠ []) :
    (rules.foldl addRule {}).Contains (canonicalDomain domain) ↔
      ∃ rule ∈ rules, geositeDomainMatch rule domain = true := by
  have hstep := fun (ct : CompiledGeositeTag) rule => contains_addRule_iff ct rule hdomain
  refine (foldl_iff_of_step
    (Q := fun ct : CompiledGeositeTag => ct.Contains (canonicalDomain domain))
    hstep rules {}).trans ?_
  simp [Contains]

end CompiledGeositeTag

/-- The lookups of `compiled_geosite_contains` in one tag. -/
theorem compiledGeositeContains_of_lookup {compiled : CompiledGeosite} {tag domain : Str}
    {ct : CompiledGeositeTag} (h : compiled.lookup tag = some ct) :
    compiledGeositeContains compiled tag domain = true ↔ ct.Contains (canonicalDomain domain) := by
  rw [compiledGeositeContains, h]
  simp only [CompiledGeositeTag.Contains, Bool.or_eq_true, List.contains_iff_mem, List.any_eq_true,
    decide_eq_true_eq, List.exists_mem_cons_iff, or_assoc]

/-- **Compiled geosite index.** A domain is in a tag of the compiled index exactly if one of the
rules of the tag matches it. -/
theorem compiledGeositeContains_iff (index : GeositeIndex) (tag domain : Str)
    (hdomain : canonicalDomain domain ≠ []) :
    compiledGeositeContains (compileGeosite index) tag domain = true ↔
      ∃ rules, index.lookup tag = some rules ∧
        ∃ rule ∈ rules, geositeDomainMatch rule domain = true := by
  have hlookup : (compileGeosite index).lookup tag =
      (index.lookup tag).map fun rules => rules.foldl CompiledGeositeTag.addRule {} :=
    HashMap.lookup_mapValues index _ tag
  cases hrules : index.lookup tag with
  | none =>
    rw [hrules] at hlookup
    simp [compiledGeositeContains, hlookup]
  | some rules =>
    rw [hrules] at hlookup
    rw [compiledGeositeContains_of_lookup hlookup,
      CompiledGeositeTag.contains_foldl_addRule_iff rules hdomain]
    simp

/-- A rule for `B.cn.` behind one with an unknown type: `x.b.cn` is in the tag. -/
theorem compiledGeositeContains_subdomain :
    compiledGeositeContains
      (compileGeosite (AList.insert [0x63, 0x6e]
        [⟨9, [0x78]⟩, ⟨2, [0x42, 0x2e, 0x63, 0x6e, 0x2e]⟩] ∅))
      [0x63, 0x6e] [0x78, 0x2e, 0x62, 0x2e, 0x63, 0x6e] = true := by
  refine (compiledGeositeContains_iff _ _ _ (by decide +kernel)).mpr ⟨_, AList.lookup_insert _, ?_⟩
  exact ⟨⟨2, [0x42, 0x2e, 0x63, 0x6e, 0x2e]⟩, by simp, by decide +kernel⟩

end XtpRs.Routing
