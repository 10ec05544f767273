import XtpRs.Net.Addr

/-!
# Domain rules

Matching of domains against configured rules: `DomainSet` for the `force_*_domains` lists and the
compiled geosite index, both of `src/state.rs`. Domains are compared in the canonical form of
`canonical_domain` of `src/util.rs`. A `HashSet<String>` is the list of its elements.

## Main definitions

* `canonicalDomain`: no leading or trailing dots, ASCII lower case.
* `domainMatchesSuffix`.
* `DomainSet.compile`, `DomainSet.matchesCanonical`.
* `compileGeosite`, `compiledGeositeContains`.

## Main results

* `canonicalDomain_idem`: a canonical form is its own canonical form.
* `domainMatchesSuffix_iff`: a suffix matches from a dot on.
* `matchesLoop_eq_true_iff`: the loop of `matches_canonical` tries the domain and each of its parts
  after a dot.
-/

namespace XtpRs.Routing

open Lib

/-- The byte `.`. -/
def dot : UInt8 := 0x2e

/-- `u8::to_ascii_lowercase`. -/
def toAsciiLowercase (b : UInt8) : UInt8 :=
  if 0x41 ≤ b ∧ b ≤ 0x5a then b + 0x20 else b

/-- `str::eq_ignore_ascii_case`. -/
def eqIgnoreAsciiCase (s t : Str) : Bool :=
  s.map toAsciiLowercase == t.map toAsciiLowercase

/-- `canonical_domain`. -/
def canonicalDomain (domain : Str) : Str :=
  ((domain.dropWhile (· == dot)).rdropWhile (· == dot)).map toAsciiLowercase

/-- `normalize_domain`. -/
def normalizeDomain (domain : Option Str) : Option Str :=
  domain.map canonicalDomain

/-! ### Canonical domains -/

theorem toAsciiLowercase_idem (b : UInt8) :
    toAsciiLowercase (toAsciiLowercase b) = toAsciiLowercase b := by
  revert b
  decide +kernel

theorem toAsciiLowercase_eq_dot_iff (b : UInt8) : toAsciiLowercase b = dot ↔ b = dot := by
  revert b
  decide +kernel

/-- A domain in canonical form: no dot at either end, and no upper case. -/
structure IsCanonical (s : Str) : Prop where
  head : s.head? ≠ some dot
  last : s.getLast? ≠ some dot
  lower : ∀ b ∈ s, toAsciiLowercase b = b

/-- A domain in canonical form is left as it is. -/
theorem canonicalDomain_eq_self {s : Str} (h : IsCanonical s) : canonicalDomain s = s := by
  have hdrop : s.dropWhile (· == dot) = s := by
    rw [List.dropWhile_eq_self_iff]
    intro hpos hdot
    refine h.head ?_
    rw [List.head?_eq_getElem?, List.getElem?_eq_getElem hpos]
    exact congrArg some (beq_iff_eq.mp hdot)
  have hrdrop : s.rdropWhile (· == dot) = s := by
    rw [List.rdropWhile_eq_self_iff]
    intro hne hdot
    refine h.last ?_
    rw [List.getLast?_eq_some_getLast hne]
    exact congrArg some (beq_iff_eq.mp hdot)
  rw [canonicalDomain, hdrop, hrdrop]
  exact (List.map_congr_left h.lower).trans (List.map_id s)

/-- Every canonical form is in canonical form. -/
theorem isCanonical_canonicalDomain (s : Str) : IsCanonical (canonicalDomain s) := by
  set t := s.dropWhile (· == dot) with ht
  set u := t.rdropWhile (· == dot) with hu
  have hcanonical : canonicalDomain s = u.map toAsciiLowercase := rfl
  rw [hcanonical]
  refine ⟨fun hhead => ?_, fun hlast => ?_, fun b hb => ?_⟩
  · rw [List.head?_map, Option.map_eq_some_iff] at hhead
    obtain ⟨b, hb, hdot⟩ := hhead
    rw [toAsciiLowercase_eq_dot_iff] at hdot
    obtain ⟨rest, hrest⟩ : ∃ rest, u ++ rest = t := List.rdropWhile_prefix _ t
    have htb : t.head? = some b := by
      rw [← hrest, List.head?_append, hb]
      rfl
    have hnot := List.head?_dropWhile_not (· == dot) s
    rw [← ht, htb] at hnot
    simp [hdot] at hnot
  · rw [List.getLast?_map, Option.map_eq_some_iff] at hlast
    obtain ⟨b, hb, hdot⟩ := hlast
    rw [toAsciiLowercase_eq_dot_iff] at hdot
    have hne : u ≠ [] := by
      intro hnil
      rw [hnil] at hb
      cases hb
    have hnot := List.rdropWhile_last_not (· == dot) t hne
    rw [List.getLast?_eq_some_getLast hne] at hb
    simp only [Option.some.injEq] at hb
    exact hnot (by rw [hb, hdot]; rfl)
  · obtain ⟨b', -, rfl⟩ := List.mem_map.mp hb
    exact toAsciiLowercase_idem b'

theorem canonicalDomain_idem (s : Str) : canonicalDomain (canonicalDomain s) = canonicalDomain s :=
  canonicalDomain_eq_self (isCanonical_canonicalDomain s)

/-- `domain_matches_suffix`. -/
def domainMatchesSuffix (domain suffix : Str) : Bool :=
  let dNorm := canonicalDomain domain
  let sNorm := canonicalDomain suffix
  if dNorm.length < sNorm.length then false
  else if dNorm.length = sNorm.length then dNorm == sNorm
  else if sNorm.isSuffixOf dNorm then
    match dNorm[dNorm.length - sNorm.length - 1]? with
    | some c => c == dot
    | none => false
  else false

/-- The canonical domain is the suffix, or ends in it behind a dot. -/
theorem domainMatchesSuffix_iff (domain suffix : Str) : domainMatchesSuffix domain suffix = true ↔
    canonicalDomain domain = canonicalDomain suffix ∨
      (dot :: canonicalDomain suffix) <:+ canonicalDomain domain := by
  unfold domainMatchesSuffix
  generalize canonicalDomain domain = d
  generalize canonicalDomain suffix = s
  dsimp only
  split_ifs with hlt heq hsuffix
  · have hne : d ≠ s := fun h => by rw [h] at hlt; omega
    have hnot : ¬(dot :: s) <:+ d := fun h => by
      have hlength := h.length_le
      rw [List.length_cons] at hlength
      omega
    simp [hne, hnot]
  · have hnot : ¬(dot :: s) <:+ d := fun h => by
      have hlength := h.length_le
      rw [List.length_cons] at hlength
      omega
    simp [hnot]
  · have hne : d ≠ s := fun h => heq (by rw [h])
    obtain ⟨front, rfl⟩ := List.isSuffixOf_iff_suffix.mp hsuffix
    rw [List.length_append] at hlt heq
    have hne' : front ≠ [] := by
      rintro rfl
      simp at heq
    obtain ⟨init, c, rfl⟩ := (List.eq_nil_or_concat' front).resolve_left hne'
    have hget : (init ++ [c] ++ s)[(init ++ [c] ++ s).length - s.length - 1]? = some c := by
      have hidx : (init ++ [c] ++ s).length - s.length - 1 = init.length := by
        simp only [List.length_append, List.length_singleton]
        omega
      rw [hidx, List.append_assoc, List.getElem?_append_right le_rfl, Nat.sub_self]
      rfl
    rw [hget]
    constructor
    · intro hc
      rw [beq_iff_eq] at hc
      exact .inr ⟨init, by rw [hc]; simp⟩
    · rintro (h | h)
      · exact absurd h hne
      · rw [List.suffix_iff_eq_drop] at h
        have hdrop : (init ++ [c] ++ s).length - (dot :: s).length = init.length := by
          simp only [List.length_append, List.length_cons, List.length_nil]
          omega
        rw [hdrop, List.append_assoc, List.drop_left] at h
        exact beq_iff_eq.mpr (List.cons.inj h).1.symm
  · have hne : d ≠ s := fun h => heq (by rw [h])
    have hnot : ¬(dot :: s) <:+ d := fun h =>
      hsuffix (List.isSuffixOf_iff_suffix.mpr ((List.suffix_cons dot s).trans h))
    simp [hne, hnot]

/-! ### The `force_*_domains` lists -/

/-- `DomainSet`. -/
structure DomainSet where
  exact : List Str := []
  suffixes : List Str := []
  deriving DecidableEq, Repr

namespace DomainSet

/-- One pattern of `DomainSet::compile`: `.example.com` is a suffix, `example.com` an exact
domain, and a pattern with empty canonical form is skipped. -/
def compilePattern (set : DomainSet) (raw : Str) : DomainSet :=
  match raw with
  | 0x2e :: stripped =>
    let norm := canonicalDomain stripped
    if norm.isEmpty then set else { set with suffixes := set.suffixes.insert norm }
  | _ =>
    let norm := canonicalDomain raw
    if norm.isEmpty then set else { set with exact := set.exact.insert norm }

/-- `DomainSet::compile`. -/
def compile (domains : List Str) : DomainSet :=
  domains.foldl compilePattern {}

/-- `DomainSet::is_empty`. -/
def isEmpty (set : DomainSet) : Bool :=
  set.exact.isEmpty && set.suffixes.isEmpty

end DomainSet

/-- The loop of `matches_canonical`: the candidate, then what follows its first dot, and so on. The
candidate gets shorter each time, so its length bounds the number of rounds. -/
def matchesLoop (suffixes : List Str) : ℕ → Str → Bool
  | 0, _ => false
  | fuel + 1, candidate =>
    suffixes.contains candidate ||
      match candidate.findIdx? (· == dot) with
      | some pos => matchesLoop suffixes fuel (candidate.drop (pos + 1))
      | none => false

/-- `DomainSet::matches_canonical`. -/
def DomainSet.matchesCanonical (set : DomainSet) (domain : Str) : Bool :=
  set.exact.contains domain || matchesLoop set.suffixes (domain.length + 1) domain

/-- The parts of a domain that follow a dot, longest first. -/
def dotTails : Str → List Str
  | [] => []
  | b :: rest => if b == dot then rest :: dotTails rest else dotTails rest

theorem dotTails_of_findIdx?_none {domain : Str} (h : domain.findIdx? (· == dot) = none) :
    dotTails domain = [] := by
  induction domain with
  | nil => rfl
  | cons b rest ih =>
    rw [List.findIdx?_cons] at h
    by_cases hb : (b == dot) = true
    · simp [hb] at h
    · simp only [hb, Bool.false_eq_true, if_false, Option.map_eq_none_iff] at h
      rw [dotTails, if_neg hb, ih h]

theorem dotTails_of_findIdx?_some {domain : Str} {pos : ℕ}
    (h : domain.findIdx? (· == dot) = some pos) :
    dotTails domain = domain.drop (pos + 1) :: dotTails (domain.drop (pos + 1)) := by
  induction domain generalizing pos with
  | nil => cases h
  | cons b rest ih =>
    rw [List.findIdx?_cons] at h
    by_cases hb : (b == dot) = true
    · rw [if_pos hb] at h
      cases h
      rw [dotTails, if_pos hb]
      rfl
    · rw [if_neg hb, Option.map_eq_some_iff] at h
      obtain ⟨pos', hpos', rfl⟩ := h
      rw [dotTails, if_neg hb, List.drop_succ_cons]
      exact ih hpos'

/-- **Rounds of `matches_canonical`.** With one round more than the length, the loop finds exactly
the suffixes that are the domain or follow one of its dots. -/
theorem matchesLoop_eq_true_iff (suffixes : List Str) {fuel : ℕ} {candidate : Str}
    (hfuel : candidate.length < fuel) :
    matchesLoop suffixes fuel candidate = true ↔
      ∃ s ∈ candidate :: dotTails candidate, s ∈ suffixes := by
  induction fuel generalizing candidate with
  | zero => omega
  | succ fuel ih =>
    rw [matchesLoop, Bool.or_eq_true, List.contains_iff_mem]
    cases hpos : candidate.findIdx? (· == dot) with
    | none => simp [dotTails_of_findIdx?_none hpos]
    | some pos =>
      have hlt : pos < candidate.length := (List.findIdx?_eq_some_iff_getElem.mp hpos).1
      rw [dotTails_of_findIdx?_some hpos, List.exists_mem_cons_iff]
      refine or_congr_right (ih ?_)
      rw [List.length_drop]
      omega

theorem matchesLoop_nil (fuel : ℕ) (candidate : Str) : matchesLoop [] fuel candidate = false := by
  induction fuel generalizing candidate with
  | zero => rfl
  | succ fuel ih =>
    rw [matchesLoop]
    split
    · simp [ih]
    · rfl

/-- An empty set matches nothing. -/
theorem DomainSet.matchesCanonical_of_isEmpty {set : DomainSet} (h : set.isEmpty = true)
    (domain : Str) : set.matchesCanonical domain = false := by
  rw [isEmpty, Bool.and_eq_true, List.isEmpty_iff, List.isEmpty_iff] at h
  rw [matchesCanonical, h.1, h.2, matchesLoop_nil]
  rfl

/-! ### The geosite index -/

/-- `GeositeDomainType`. -/
inductive GeositeDomainType
  | plain
  | regex
  | domain
  | full
  | unknown (value : Int32)
  deriving DecidableEq, Repr

/-- `From<i32> for GeositeDomainType`. -/
def GeositeDomainType.ofInt32 (value : Int32) : GeositeDomainType :=
  if value = 0 then plain
  else if value = 1 then regex
  else if value = 2 then domain
  else if value = 3 then full
  else unknown value

/-- `geosite::Domain`, as far as matching reads it. -/
structure GeositeDomain where
  type : Int32
  value : Str
  deriving DecidableEq, Repr

/-- `GeositeIndex`: the rules of each tag. -/
abbrev GeositeIndex := HashMap Str (List GeositeDomain)

/-- `CompiledGeositeTag`. -/
structure CompiledGeositeTag where
  exact : List Str := []
  suffixes : List Str := []
  plain : List Str := []
  deriving DecidableEq, Repr

/-- `CompiledGeosite`. -/
abbrev CompiledGeosite := HashMap Str CompiledGeositeTag

/-- One rule of `compile_geosite`. -/
def CompiledGeositeTag.addRule (ct : CompiledGeositeTag) (rule : GeositeDomain) :
    CompiledGeositeTag :=
  let value := canonicalDomain rule.value
  if value.isEmpty then ct
  else
    match GeositeDomainType.ofInt32 rule.type with
    | .full => { ct with exact := ct.exact.insert value }
    | .domain => { ct with suffixes := ct.suffixes.insert value }
    | .plain => { ct with plain := ct.plain ++ [value] }
    | .regex | .unknown _ => ct

/-- `compile_geosite`. -/
def compileGeosite (index : GeositeIndex) : CompiledGeosite :=
  index.mapValues fun rules => rules.foldl CompiledGeositeTag.addRule {}

/-- `compiled_geosite_contains`. -/
def compiledGeositeContains (compiled : CompiledGeosite) (tag domain : Str) : Bool :=
  match compiled.lookup tag with
  | none => false
  | some ct =>
    let domain := canonicalDomain domain
    ct.exact.contains domain || ct.suffixes.contains domain ||
      (dotTails domain).any ct.suffixes.contains || ct.plain.any fun p => p <:+: domain

end XtpRs.Routing
