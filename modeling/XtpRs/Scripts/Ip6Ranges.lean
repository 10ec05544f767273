import XtpRs.Lib.Awk
import XtpRs.Lib.Digits
import XtpRs.Net.Text

/-!
# The filter for IPv6 ranges

`update_china_ip6s` of `contrib/usr/libexec/xtp-rs/update-chnroute.sh` turns lines of two IPv6
addresses into the ranges of an `nft` set. Its awk program tests the addresses without regular
expressions and compares the ends of a range by strings of 32 hexadecimal digits, as awk has no
numbers of 128 bits; the program runs in the C locale, where strings are compared by bytes.

What the program is for is said without it: `Ip6Literal t gs` holds if `t` is a literal with the
eight groups `gs`, and `ip6Value gs` is the address as a number. A line has two fields if it is two
words with blanks between them (`TwoFields`); blanks are space and tab.

## Main definitions

* `ip6Groups`, `ip6Ok`, `ip6Key`, `ip6Rule`: the functions and the rule of the program.
* `ip6Filter`: the program.

## Main results

* `ip6Ok_iff`: exactly the literals are accepted.
* `ip6Key_eq`, `length_ip6Key`, `ip6Key_lt_iff`: the key of a literal.
* `ip6Rule_exact`: the rule emits a range if and only if the line is one.
* `ip6Filter_out`: the output of the program.
-/

namespace XtpRs.Scripts

open Lib Lib.Awk

/-! ### The program -/

/-- `HEX`: the hexadecimal digits of both cases. -/
def hexChars : Str :=
  [0x30, 0x31, 0x32, 0x33, 0x34, 0x35, 0x36, 0x37, 0x38, 0x39, 0x61, 0x62, 0x63, 0x64, 0x65, 0x66,
    0x41, 0x42, 0x43, 0x44, 0x45, 0x46]

/-- `toupper` of a character in the C locale. -/
def toupper (c : UInt8) : UInt8 :=
  if 0x61 ≤ c ∧ c ≤ 0x7a then c - 0x20 else c

/-- The loop of `ip6_groups` over the rest of the segment. -/
def ip6GroupsLoop (glen groups : ℕ) : Str → ℤ
  | [] => if glen = 0 then -1 else groups + 1
  | c :: seg =>
    if c = 0x3a then
      if glen = 0 then -1 else ip6GroupsLoop 0 (groups + 1) seg
    else if index hexChars [c] = 0 then -1
    else if 4 < glen + 1 then -1
    else ip6GroupsLoop (glen + 1) groups seg

/-- `ip6_groups` -/
def ip6Groups (seg : Str) : ℤ :=
  if seg.length = 0 then 0 else ip6GroupsLoop 0 0 seg

/-- `ip6_ok` -/
def ip6Ok (t : Str) : Bool :=
  if t = [] ∨ index t [0x3a] = 0 then false
  else if 0 < index t [0x3a, 0x3a, 0x3a] then false
  else
    let pos := index t [0x3a, 0x3a]
    if pos = 0 then ip6Groups t = 8
    else
      let nl := ip6Groups (substrLength t 1 (pos - 1))
      if nl < 0 then false
      else
        let nr := ip6Groups (substr t (pos + 2))
        if nr < 0 then false else nl + nr < 8

/-- A group in a key: in upper case, with zeros in front up to four digits. -/
def ip6KeyGroup (g : Str) : Str :=
  (g.map toupper).leftpad 4 0x30

/-- `ip6_key` -/
def ip6Key (t : Str) : Str :=
  let pos := index t [0x3a, 0x3a]
  let ah := if pos = 0 then splitAt (· == 0x3a) t
    else splitAt (· == 0x3a) (substrLength t 1 (pos - 1))
  let at' := if pos = 0 then [] else splitAt (· == 0x3a) (substr t (pos + 2))
  let miss := if pos = 0 then 0 else 8 - ah.length - at'.length
  ah.flatMap ip6KeyGroup ++ (List.replicate miss [0x30, 0x30, 0x30, 0x30]).flatten ++
    at'.flatMap ip6KeyGroup

/-- The class `[ \t\r]`. -/
def isTrimmed (c : UInt8) : Bool :=
  c ∈ [0x20, 0x09, 0x0d]

/-- The class `[ \t]`. -/
def isBlank (c : UInt8) : Bool :=
  c ∈ [0x20, 0x09]

/-- `sub(/^[ \t\r]+/, "", line); sub(/[ \t\r]+$/, "", line)` -/
def trimLine (line : Str) : Str :=
  (line.dropWhile isTrimmed).rdropWhile isTrimmed

/-- What the rule does with a line. -/
inductive Ip6Rule
  | next
  | bad
  | emit (first last : Str)
deriving DecidableEq, Repr

/-- The main rule. -/
def ip6Rule (line : Str) : Ip6Rule :=
  let line := trimLine line
  if line = [] ∨ line.head? = some 0x23 then .next
  else
    match splitRuns isBlank line with
    | [first, last] =>
      if !ip6Ok first || !ip6Ok last then .bad
      else if ip6Key last < ip6Key first then .bad
      else .emit first last
    | _ => .bad

/-- The text printed for a line: `      first-last,` and a newline. -/
def Ip6Rule.text : Ip6Rule → Str
  | .emit first last => List.replicate 6 0x20 ++ first ++ 0x2d :: last ++ [0x2c, 0x0a]
  | _ => []

/-- The output so far and the counters. -/
structure Ip6Filter where
  out : Str := []
  bad : ℕ := 0
  cnt : ℕ := 0
deriving DecidableEq, Repr

/-- One line. -/
def ip6FilterStep (st : Ip6Filter) (line : Str) : Ip6Filter :=
  match ip6Rule line with
  | .next => st
  | .bad => { st with bad := st.bad + 1 }
  | .emit first last =>
    { st with out := st.out ++ (Ip6Rule.emit first last).text, cnt := st.cnt + 1 }

/-- The lines of the file. The number of the lines skipped is reported on the standard error
output. -/
def ip6Filter (lines : List Str) : Ip6Filter :=
  lines.foldl ip6FilterStep {}

/-- The exit status of the program. -/
def Ip6Filter.status (st : Ip6Filter) : ℕ :=
  if st.cnt = 0 then 1 else 0

/-! ### What the program is for -/

/-- One to four hexadecimal digits. -/
structure IsHexGroup (g : Str) : Prop where
  pos : 1 ≤ g.length
  le : g.length ≤ 4
  isHex : ∀ c ∈ g, (toDigit 16 c).isSome

instance (g : Str) : Decidable (IsHexGroup g) :=
  decidable_of_iff (1 ≤ g.length ∧ g.length ≤ 4 ∧ ∀ c ∈ g, (toDigit 16 c).isSome)
    ⟨fun h => ⟨h.1, h.2.1, h.2.2⟩, fun h => ⟨h.pos, h.le, h.isHex⟩⟩

/-- Groups with colons between them. -/
def joinGroups (gs : List Str) : Str :=
  [(0x3a : UInt8)].intercalate gs

/-- A literal and its eight groups: eight groups are written, or fewer with one `::` in the place of
the groups that are zero. -/
inductive Ip6Literal : Str → List Str → Prop
  | full {gs : List Str} (hgs : ∀ g ∈ gs, IsHexGroup g) (hlength : gs.length = 8) :
      Ip6Literal (joinGroups gs) gs
  | compressed {ls rs : List Str} (hls : ∀ g ∈ ls, IsHexGroup g) (hrs : ∀ g ∈ rs, IsHexGroup g)
      (hlength : ls.length + rs.length < 8) :
      Ip6Literal (joinGroups ls ++ [0x3a, 0x3a] ++ joinGroups rs)
        (ls ++ List.replicate (8 - ls.length - rs.length) [0x30] ++ rs)

/-- The value of a hexadecimal digit. -/
def hexDigit (c : UInt8) : ℕ :=
  (toDigit 16 c).getD 0

/-- The address with the given groups, as a number. -/
def ip6Value (gs : List Str) : ℕ :=
  bigEndian (2 ^ 16) (gs.map fun g => bigEndian 16 (g.map hexDigit))

/-- The text is two words with blanks between them. -/
def TwoFields (s first last : Str) : Prop :=
  ∃ gap, s = first ++ gap ++ last ∧ gap ≠ [] ∧ (∀ c ∈ gap, isBlank c) ∧
    (first ≠ [] ∧ ∀ c ∈ first, isBlank c = false) ∧ last ≠ [] ∧ ∀ c ∈ last, isBlank c = false

/-! ### Groups and colons -/

/-- The parts of a text between colons. -/
def segments (s : Str) : List Str :=
  s.splitOnP (· == 0x3a)

theorem segments_append_cons (s t : Str) :
    segments (s ++ 0x3a :: t) = segments s ++ segments t :=
  List.splitOnP_append_cons s t (beq_self_eq_true _)

theorem segments_ne_nil (s : Str) : segments s ≠ [] :=
  List.splitOnP_ne_nil _ s

theorem joinGroups_segments (s : Str) : joinGroups (segments s) = s :=
  List.intercalate_splitOn 0x3a

theorem index_hexChars_eq_zero_iff (c : UInt8) :
    index hexChars [c] = 0 ↔ (toDigit 16 c).isSome = false := by
  revert c
  decide +kernel

namespace IsHexGroup

variable {g : Str}

theorem ne_nil (h : IsHexGroup g) : g ≠ [] :=
  List.ne_nil_of_length_pos h.pos

theorem ne_colon (h : IsHexGroup g) : ∀ c ∈ g, (c == 0x3a) = false := by
  refine fun c hc => beq_eq_false_iff_ne.mpr ?_
  rintro rfl
  exact absurd (h.isHex _ hc) (by decide)

theorem isBlank (h : IsHexGroup g) : ∀ c ∈ g, isBlank c = false := by
  have hall : ∀ c, (toDigit 16 c).isSome → Scripts.isBlank c = false := by
    decide +kernel
  exact fun c hc => hall c (h.isHex c hc)

end IsHexGroup

section Joined

variable {gs : List Str} (hgs : ∀ g ∈ gs, IsHexGroup g)

include hgs

theorem segments_joinGroups (hne : gs ≠ []) : segments (joinGroups gs) = gs :=
  List.splitOn_intercalate 0x3a
    (fun g hg hmem => absurd ((hgs g hg).ne_colon _ hmem) (by decide)) hne

/-- What is around a colon of groups are groups. -/
theorem segments_around {x y : Str} (h : joinGroups gs = x ++ 0x3a :: y) :
    segments x ++ segments y = gs := by
  have hne : gs ≠ [] := by
    rintro rfl
    exact absurd h.symm (by simp [joinGroups])
  rw [← segments_append_cons, ← h, segments_joinGroups hgs hne]

theorem nil_notMem : ([] : Str) ∉ gs :=
  fun h => (hgs _ h).ne_nil rfl

theorem not_colon_prefix : ¬[0x3a] <+: joinGroups gs := by
  rintro ⟨y, hy⟩
  have h := segments_around hgs (x := []) hy.symm
  exact nil_notMem hgs (h ▸ List.mem_append_left _ List.mem_cons_self)

theorem not_colon_suffix : ¬[0x3a] <:+ joinGroups gs := by
  rintro ⟨x, hx⟩
  have h := segments_around hgs (y := []) hx.symm
  exact nil_notMem hgs (h ▸ List.mem_append_right _ List.mem_cons_self)

theorem not_isInfix_double : ¬[0x3a, 0x3a] <:+: joinGroups gs := by
  rintro ⟨x, y, hxy⟩
  have h := segments_around hgs (x := x) (y := 0x3a :: y) (by rw [← hxy]; simp)
  rw [← List.nil_append (0x3a :: y), segments_append_cons] at h
  exact nil_notMem hgs (h ▸ List.mem_append_right _ List.mem_cons_self)

end Joined

/-! ### The scanner -/

/-- A group that has `glen` digits already. -/
def ContinuesGroup (glen : ℕ) (g : Str) : Prop :=
  1 ≤ glen + g.length ∧ glen + g.length ≤ 4 ∧ ∀ c ∈ g, (toDigit 16 c).isSome

instance (glen : ℕ) (g : Str) : Decidable (ContinuesGroup glen g) :=
  inferInstanceAs (Decidable (_ ∧ _))

theorem continuesGroup_zero (g : Str) : ContinuesGroup 0 g ↔ IsHexGroup g := by
  rw [ContinuesGroup, zero_add]
  exact ⟨fun h => ⟨h.1, h.2.1, h.2.2⟩, fun h => ⟨h.pos, h.le, h.isHex⟩⟩

theorem continuesGroup_nil (glen : ℕ) : ContinuesGroup glen [] ↔ 1 ≤ glen ∧ glen ≤ 4 := by
  simp [ContinuesGroup]

theorem continuesGroup_cons {glen : ℕ} {c : UInt8} {g : Str} :
    ContinuesGroup glen (c :: g) ↔ (toDigit 16 c).isSome ∧ ContinuesGroup (glen + 1) g := by
  rw [ContinuesGroup, ContinuesGroup, List.forall_mem_cons, List.length_cons]
  have h : glen + (g.length + 1) = glen + 1 + g.length := by omega
  rw [h]
  tauto

/-- The scanner counts the segments if all of them are groups. -/
theorem ip6GroupsLoop_eq {seg g : Str} {gs : List Str} (hseg : segments seg = g :: gs)
    {glen : ℕ} (hglen : glen ≤ 4) (groups : ℕ) :
    ip6GroupsLoop glen groups seg =
      if ContinuesGroup glen g ∧ ∀ h ∈ gs, IsHexGroup h then (groups + 1 + gs.length : ℤ)
      else -1 := by
  induction seg generalizing g gs glen groups with
  | nil =>
      obtain ⟨rfl, rfl⟩ : [] = g ∧ [] = gs := List.cons.inj hseg
      simp only [ip6GroupsLoop, continuesGroup_nil, List.not_mem_nil, false_implies, implies_true,
        and_true, List.length_nil, Nat.cast_zero, add_zero]
      split_ifs <;> omega
  | cons c seg ih =>
      obtain ⟨g', gs', hrest⟩ := List.exists_cons_of_ne_nil (segments_ne_nil seg)
      rw [segments, List.splitOnP_cons_eq_if_modifyHead, ← segments, hrest] at hseg
      by_cases hc : c = 0x3a
      · -- the group ends here
        subst hc
        obtain ⟨rfl, rfl⟩ : [] = g ∧ g' :: gs' = gs := List.cons.inj hseg
        rw [ip6GroupsLoop, if_pos rfl, ih hrest (Nat.zero_le _)]
        simp only [continuesGroup_zero, continuesGroup_nil, List.forall_mem_cons]
        by_cases h0 : glen = 0
        · simp [h0]
        · have hpos : 1 ≤ glen ∧ glen ≤ 4 := ⟨Nat.one_le_iff_ne_zero.mpr h0, hglen⟩
          simp only [h0, hpos, if_false, true_and, and_self, List.length_cons]
          refine if_congr Iff.rfl ?_ rfl
          push_cast
          ring
      · rw [if_neg (by simpa using hc), List.modifyHead_cons] at hseg
        obtain ⟨rfl, rfl⟩ := List.cons.inj hseg
        rw [ip6GroupsLoop, if_neg hc]
        simp only [continuesGroup_cons]
        by_cases hhex : (toDigit 16 c).isSome
        · rw [if_neg fun h => by simp [(index_hexChars_eq_zero_iff c).mp h] at hhex]
          by_cases hlt : 4 < glen + 1
          · have hnot : ¬ContinuesGroup (glen + 1) g' := fun h => by
              have := h.2.1
              omega
            simp [hlt, hnot]
          · rw [if_neg hlt, ih hrest (by omega)]
            simp [hhex]
        · rw [if_pos ((index_hexChars_eq_zero_iff c).mpr (by simpa using hhex))]
          simp [hhex]

theorem ip6Groups_eq {seg : Str} (hne : seg ≠ []) :
    ip6Groups seg =
      if ∀ g ∈ segments seg, IsHexGroup g then ((segments seg).length : ℤ) else -1 := by
  obtain ⟨g, gs, hseg⟩ := List.exists_cons_of_ne_nil (segments_ne_nil seg)
  rw [ip6Groups, if_neg (by simpa using hne), ip6GroupsLoop_eq hseg (Nat.zero_le 4), hseg]
  simp only [continuesGroup_zero, List.forall_mem_cons, List.length_cons, Nat.cast_zero, zero_add,
    Nat.cast_add, Nat.cast_one, add_comm]

theorem joinGroups_ne_nil {gs : List Str} (hgs : ∀ g ∈ gs, IsHexGroup g) (hne : gs ≠ []) :
    joinGroups gs ≠ [] := by
  intro h
  have hseg := segments_joinGroups hgs hne
  rw [h] at hseg
  exact nil_notMem hgs (hseg ▸ List.mem_cons_self)

/-- The groups of a text that are joined are counted. -/
theorem ip6Groups_joinGroups {gs : List Str} (hgs : ∀ g ∈ gs, IsHexGroup g) :
    ip6Groups (joinGroups gs) = gs.length := by
  by_cases hne : gs = []
  · subst hne
    rfl
  · rw [ip6Groups_eq (joinGroups_ne_nil hgs hne), segments_joinGroups hgs hne, if_pos hgs]

/-- A text that is not rejected is some groups joined. -/
theorem exists_groups {seg : Str} (h : 0 ≤ ip6Groups seg) :
    ∃ gs, seg = joinGroups gs ∧ (∀ g ∈ gs, IsHexGroup g) ∧ ip6Groups seg = gs.length := by
  by_cases hne : seg = []
  · subst hne
    exact ⟨[], rfl, by simp, rfl⟩
  · rw [ip6Groups_eq hne] at h ⊢
    split_ifs at h ⊢ with hgs
    · exact ⟨segments seg, (joinGroups_segments seg).symm, hgs, rfl⟩
    · exact absurd h (by decide)

/-! ### Literals -/

/-- The parts of a text of colons. -/
theorem eq_colons_of_append {l m : Str} {n : ℕ} (h : List.replicate n 0x3a = l ++ m) :
    (l = [] ∨ [0x3a] <:+ l) ∧ (m = [] ∨ [0x3a] <+: m) := by
  obtain ⟨-, hl, hm⟩ := List.append_eq_replicate_iff.mp h.symm
  refine ⟨?_, ?_⟩
  · rw [hl]
    cases l.length with
    | zero => exact .inl rfl
    | succ k => exact .inr ⟨List.replicate k 0x3a, (List.replicate_succ' ..).symm⟩
  · rw [hm]
    cases m.length with
    | zero => exact .inl rfl
    | succ k => exact .inr ⟨List.replicate k 0x3a, rfl⟩

/-- No run of colons goes over the end of groups. -/
theorem infix_joinGroups_append {gs : List Str} (hgs : ∀ g ∈ gs, IsHexGroup g) {n : ℕ} (hn : 2 ≤ n)
    {s : Str} (h : List.replicate n 0x3a <:+: joinGroups gs ++ s) :
    List.replicate n 0x3a <:+: s := by
  have hdouble : [0x3a, 0x3a] <+: List.replicate n (0x3a : UInt8) :=
    ⟨List.replicate (n - 2) 0x3a, by
      obtain ⟨k, rfl⟩ := Nat.exists_eq_add_of_le' hn
      rfl⟩
  obtain h | h | ⟨l, m, hlm, hl, hm⟩ := List.infix_append_iff.mp h
  · exact absurd (hdouble.isInfix.trans h) (not_isInfix_double hgs)
  · exact h
  · obtain rfl | hcolon := (eq_colons_of_append hlm).1
    · rw [hlm]
      exact hm.isInfix
    · exact absurd (hcolon.trans hl) (not_colon_suffix hgs)

section Compressed

variable {ls rs : List Str} (hls : ∀ g ∈ ls, IsHexGroup g) (hrs : ∀ g ∈ rs, IsHexGroup g)

include hls

/-- The `::` of a literal is where it is looked for. -/
theorem index_compressed (r : Str) :
    index (joinGroups ls ++ [0x3a, 0x3a] ++ r) [0x3a, 0x3a] = (joinGroups ls).length + 1 := by
  refine index_append (by simp) (fun h => ?_) r
  exact absurd (infix_joinGroups_append hls (n := 2) le_rfl h).length_le (by simp)

include hrs

/-- There is no `:::` in a literal. -/
theorem index_triple_compressed :
    index (joinGroups ls ++ [0x3a, 0x3a] ++ joinGroups rs) [0x3a, 0x3a, 0x3a] = 0 := by
  rw [index_eq_zero_iff (by simp), List.append_assoc]
  intro h
  obtain h | h | ⟨l, m, hlm, hl, hm⟩ :=
    List.infix_append_iff.mp (infix_joinGroups_append hls (n := 3) (by decide) h)
  · exact absurd h.length_le (by simp)
  · exact not_isInfix_double hrs ((List.suffix_cons 0x3a [0x3a, 0x3a]).isInfix.trans h)
  · obtain rfl | hcolon := (eq_colons_of_append hlm).2
    · rw [List.append_nil] at hlm
      exact absurd (hlm ▸ hl).length_le (by simp)
    · exact not_colon_prefix hrs (hcolon.trans hm)

end Compressed

theorem index_double_full {gs : List Str} (hgs : ∀ g ∈ gs, IsHexGroup g) :
    index (joinGroups gs) [0x3a, 0x3a] = 0 :=
  (index_eq_zero_iff (by simp)).mpr (not_isInfix_double hgs)

theorem index_triple_full {gs : List Str} (hgs : ∀ g ∈ gs, IsHexGroup g) :
    index (joinGroups gs) [0x3a, 0x3a, 0x3a] = 0 :=
  (index_eq_zero_iff (by simp)).mpr fun h =>
    not_isInfix_double hgs ((List.suffix_cons 0x3a [0x3a, 0x3a]).isInfix.trans h)

/-- A text with a colon is not one of those rejected at once. -/
theorem not_rejected {t : Str} (h : 0x3a ∈ t) : ¬(t = [] ∨ index t [0x3a] = 0) := by
  rintro (rfl | h0)
  · exact absurd h List.not_mem_nil
  · exact (index_eq_zero_iff (by simp)).mp h0 ((List.singleton_infix_iff _ _).mpr h)

theorem colon_mem_joinGroups {g h : Str} {gs : List Str} : 0x3a ∈ joinGroups (g :: h :: gs) := by
  simp [joinGroups, List.intercalate_cons_cons]

/-- The parts around the `::` of a literal. -/
theorem parts_compressed (l r : Str) :
    substrLength (l ++ [0x3a, 0x3a] ++ r) 1 (l.length + 1 - 1) = l ∧
      substr (l ++ [0x3a, 0x3a] ++ r) (l.length + 1 + 2) = r := by
  have hlength : l.length + 1 + 2 - 1 = (l ++ [0x3a, 0x3a]).length := by simp
  constructor
  · simp [substrLength, substr]
  · rw [substr, hlength, List.drop_left]

/-- Exactly the literals are accepted. -/
theorem ip6Ok_iff (t : Str) : ip6Ok t = true ↔ ∃ gs, Ip6Literal t gs := by
  constructor
  · intro h
    simp only [ip6Ok] at h
    split_ifs at h with hcolon htriple hpos hl hr
    · have height : ip6Groups t = 8 := of_decide_eq_true h
      obtain ⟨gs, ht, hgs, hlength⟩ := exists_groups (height ▸ by decide : 0 ≤ ip6Groups t)
      rw [ht]
      exact ⟨gs, .full hgs (by omega)⟩
    · obtain ⟨ls, hleft, hls, hllength⟩ := exists_groups (not_lt.mp hl)
      obtain ⟨rs, hright, hrs, hrlength⟩ := exists_groups (not_lt.mp hr)
      have hlt := of_decide_eq_true h
      have ht := eq_of_index (rfl : index t [0x3a, 0x3a] = _) hpos
      rw [List.length_cons, List.length_singleton, hleft, hright] at ht
      rw [ht]
      exact ⟨_, .compressed hls hrs (by omega)⟩
  · rintro ⟨gs, h⟩
    cases h with
    | full hgs hlength =>
        obtain ⟨g, h, gs, rfl⟩ : ∃ g h gs', gs = g :: h :: gs' := by
          obtain ⟨g, gs, rfl⟩ := List.exists_cons_of_length_eq_add_one hlength
          obtain ⟨h, gs, rfl⟩ :=
            List.exists_cons_of_length_eq_add_one (Nat.succ.inj hlength : gs.length = 6 + 1)
          exact ⟨g, h, gs, rfl⟩
        simp only [ip6Ok, not_rejected colon_mem_joinGroups, index_triple_full hgs,
          index_double_full hgs, ip6Groups_joinGroups hgs, hlength]
        simp
    | @compressed ls rs hls hrs hlength =>
        obtain ⟨hleft, hright⟩ := parts_compressed (joinGroups ls) (joinGroups rs)
        have hmem : 0x3a ∈ joinGroups ls ++ [0x3a, 0x3a] ++ joinGroups rs := by simp
        simp only [ip6Ok, not_rejected hmem, index_triple_compressed hls hrs, index_compressed hls,
          hleft, hright, ip6Groups_joinGroups hls, ip6Groups_joinGroups hrs]
        have hlt : (ls.length + rs.length : ℤ) < 8 := by exact_mod_cast hlength
        simp [hlt]

/-! ### Keys -/

theorem splitAt_joinGroups {gs : List Str} (hgs : ∀ g ∈ gs, IsHexGroup g) :
    splitAt (· == 0x3a) (joinGroups gs) = gs := by
  by_cases hne : gs = []
  · subst hne
    rfl
  · have htext := joinGroups_ne_nil hgs hne
    rw [splitAt, if_neg (by simpa using htext)]
    exact segments_joinGroups hgs hne

/-- The key is that of the eight groups. -/
theorem ip6Key_eq {t : Str} {gs : List Str} (h : Ip6Literal t gs) :
    ip6Key t = gs.flatMap ip6KeyGroup := by
  cases h with
  | full hgs hlength =>
      simp only [ip6Key, index_double_full hgs, splitAt_joinGroups hgs]
      simp
  | @compressed ls rs hls hrs hlength =>
      obtain ⟨hleft, hright⟩ := parts_compressed (joinGroups ls) (joinGroups rs)
      have hzero (n : ℕ) : (List.replicate n [0x30]).flatMap ip6KeyGroup =
          (List.replicate n [0x30, 0x30, 0x30, 0x30]).flatten := by
        rw [List.flatMap_def, List.map_replicate]
        rfl
      simp only [ip6Key, index_compressed hls, hleft, hright, splitAt_joinGroups hls,
        splitAt_joinGroups hrs, List.flatMap_append, hzero]
      simp

theorem isHexGroup_zero : IsHexGroup [0x30] :=
  ⟨by decide, by decide, by simp only [List.forall_mem_singleton]; decide⟩

theorem Ip6Literal.isHexGroup {t : Str} {gs : List Str} (h : Ip6Literal t gs) :
    ∀ g ∈ gs, IsHexGroup g := by
  cases h with
  | full hgs hlength => exact hgs
  | compressed hls hrs hlength =>
      intro g hg
      rw [List.mem_append, List.mem_append, List.mem_replicate] at hg
      obtain (hg | ⟨-, rfl⟩) | hg := hg
      · exact hls g hg
      · exact isHexGroup_zero
      · exact hrs g hg

theorem Ip6Literal.length_eq {t : Str} {gs : List Str} (h : Ip6Literal t gs) : gs.length = 8 := by
  cases h with
  | full hgs hlength => exact hlength
  | compressed hls hrs hlength =>
      simp only [List.length_append, List.length_replicate]
      omega

/-- A digit of a key. -/
def IsKeyChar (c : UInt8) : Prop :=
  0x30 ≤ c ∧ c ≤ 0x39 ∨ 0x41 ≤ c ∧ c ≤ 0x46

instance (c : UInt8) : Decidable (IsKeyChar c) :=
  inferInstanceAs (Decidable (_ ∨ _))

theorem isKeyChar_toupper (c : UInt8) (hc : (toDigit 16 c).isSome) : IsKeyChar (toupper c) := by
  revert c
  decide +kernel

theorem hexDigit_toupper (c : UInt8) : hexDigit (toupper c) = hexDigit c := by
  revert c
  decide +kernel

theorem hexDigit_lt (c : UInt8) : hexDigit c < 16 := by
  revert c
  decide +kernel

theorem hexDigit_eq (c : UInt8) (hc : IsKeyChar c) :
    hexDigit c = if c.toNat ≤ 0x39 then c.toNat - 0x30 else c.toNat - 0x37 := by
  revert c
  decide +kernel

/-- The bytes of the digits of a key are ordered as their values. -/
theorem hexDigit_lt_iff {c d : UInt8} (hc : IsKeyChar c) (hd : IsKeyChar d) :
    hexDigit c < hexDigit d ↔ c < d := by
  rw [hexDigit_eq c hc, hexDigit_eq d hd, UInt8.lt_iff_toNat_lt]
  simp only [IsKeyChar, UInt8.le_iff_toNat_le, UInt8.toNat_ofNat] at hc hd
  split_ifs <;> omega

theorem hexDigit_inj {c d : UInt8} (hc : IsKeyChar c) (hd : IsKeyChar d)
    (h : hexDigit c = hexDigit d) : c = d := by
  have hlt : ¬c < d := fun hlt => ((hexDigit_lt_iff hc hd).mpr hlt).ne h
  have hgt : ¬d < c := fun hgt => ((hexDigit_lt_iff hd hc).mpr hgt).ne h.symm
  exact UInt8.le_antisymm (UInt8.not_lt.mp hgt) (UInt8.not_lt.mp hlt)

theorem map_hexDigit_lt_iff {s t : Str} (hs : ∀ c ∈ s, IsKeyChar c) (ht : ∀ c ∈ t, IsKeyChar c) :
    s.map hexDigit < t.map hexDigit ↔ s < t := by
  induction s generalizing t with
  | nil => cases t <;> simp
  | cons c s ih =>
      cases t with
      | nil => simp
      | cons d t =>
          obtain ⟨hc, hs⟩ := List.forall_mem_cons.mp hs
          obtain ⟨hd, ht⟩ := List.forall_mem_cons.mp ht
          have heq : hexDigit c = hexDigit d ↔ c = d :=
            ⟨hexDigit_inj hc hd, fun h => congrArg hexDigit h⟩
          rw [List.map_cons, List.map_cons, List.cons_lt_cons_iff, List.cons_lt_cons_iff,
            hexDigit_lt_iff hc hd, heq, ih hs ht]

namespace IsHexGroup

variable {g : Str} (hg : IsHexGroup g)

include hg

theorem length_keyGroup : (ip6KeyGroup g).length = 4 := by
  rw [ip6KeyGroup, List.length_leftpad, List.length_map]
  exact max_eq_left hg.le

theorem isKeyChar : ∀ c ∈ ip6KeyGroup g, IsKeyChar c := by
  intro c hc
  rw [ip6KeyGroup, List.leftpad, List.mem_append, List.mem_replicate, List.mem_map] at hc
  obtain ⟨-, rfl⟩ | ⟨d, hd, rfl⟩ := hc
  · decide
  · exact isKeyChar_toupper d (hg.isHex d hd)

end IsHexGroup

/-- Padding a group does not change its value. -/
theorem bigEndian_keyGroup (g : Str) :
    bigEndian 16 ((ip6KeyGroup g).map hexDigit) = bigEndian 16 (g.map hexDigit) := by
  have hmap : (g.map toupper).map hexDigit = g.map hexDigit := by
    rw [List.map_map]
    exact List.map_congr_left fun c _ => hexDigit_toupper c
  have hzero : hexDigit 0x30 = 0 := by decide
  rw [ip6KeyGroup, List.leftpad, List.map_append, hmap, List.map_replicate, hzero,
    bigEndian_append, bigEndian_replicate_zero, zero_mul, zero_add]

section Literal

variable {t u : Str} {gs hs : List Str} (ht : Ip6Literal t gs) (hu : Ip6Literal u hs)

include ht

theorem length_ip6Key : (ip6Key t).length = 32 := by
  have hlength : ∀ g ∈ gs, (ip6KeyGroup g).length = 4 := fun g hg =>
    (ht.isHexGroup g hg).length_keyGroup
  rw [ip6Key_eq ht, List.length_flatMap, List.map_congr_left hlength, List.map_const',
    List.sum_replicate, ht.length_eq]
  rfl

theorem isKeyChar_ip6Key : ∀ c ∈ ip6Key t, IsKeyChar c := by
  intro c hc
  rw [ip6Key_eq ht, List.mem_flatMap] at hc
  obtain ⟨g, hg, hc⟩ := hc
  exact (ht.isHexGroup g hg).isKeyChar c hc

/-- The key is the address in hexadecimal digits. -/
theorem bigEndian_ip6Key : bigEndian 16 ((ip6Key t).map hexDigit) = ip6Value gs := by
  rw [ip6Key_eq ht, List.map_flatMap, bigEndian_flatMap (n := 4) _ gs fun g hg => by
    rw [List.length_map, (ht.isHexGroup g hg).length_keyGroup]]
  exact congrArg (bigEndian _) (List.map_congr_left fun g _ => bigEndian_keyGroup g)

include hu

/-- Keys are ordered by bytes as the addresses by value. -/
theorem ip6Key_lt_iff : ip6Key t < ip6Key u ↔ ip6Value gs < ip6Value hs := by
  have hdigit (s : Str) : ∀ d ∈ s.map hexDigit, d < 16 := fun d hd => by
    obtain ⟨c, -, rfl⟩ := List.mem_map.mp hd
    exact hexDigit_lt c
  rw [← bigEndian_ip6Key ht, ← bigEndian_ip6Key hu,
    bigEndian_lt_iff (by simp [length_ip6Key ht, length_ip6Key hu]) (hdigit _) (hdigit _),
    map_hexDigit_lt_iff (isKeyChar_ip6Key ht) (isKeyChar_ip6Key hu)]

end Literal

/-- A literal has one list of groups, up to their value. -/
theorem ip6Value_unique {t : Str} {gs hs : List Str} (h : Ip6Literal t gs) (h' : Ip6Literal t hs) :
    ip6Value gs = ip6Value hs :=
  (bigEndian_ip6Key h).symm.trans (bigEndian_ip6Key h')

/-! ### The rule -/

theorem mem_joinGroups {gs : List Str} {c : UInt8} (hc : c ∈ joinGroups gs) :
    c = 0x3a ∨ ∃ g ∈ gs, c ∈ g := by
  induction gs with
  | nil => exact absurd hc (by simp [joinGroups])
  | cons g gs ih =>
      cases gs with
      | nil => exact .inr ⟨g, List.mem_cons_self, by simpa [joinGroups] using hc⟩
      | cons h gs =>
          rw [joinGroups, List.intercalate_cons_cons, List.mem_append, List.mem_append,
            List.mem_singleton] at hc
          obtain (hc | hc) | hc := hc
          · exact .inr ⟨g, List.mem_cons_self, hc⟩
          · exact .inl hc
          · exact (ih hc).imp_right fun ⟨k, hk, hck⟩ => ⟨k, List.mem_cons_of_mem _ hk, hck⟩

theorem Ip6Literal.ne_nil {t : Str} {gs : List Str} (h : Ip6Literal t gs) : t ≠ [] := by
  have hok : ip6Ok t = true := (ip6Ok_iff t).mpr ⟨gs, h⟩
  rintro rfl
  exact absurd hok (by decide)

/-- A literal has colons and hexadecimal digits only. -/
theorem Ip6Literal.of_mem {t : Str} {gs : List Str} (h : Ip6Literal t gs) {c : UInt8}
    (hc : c ∈ t) : c = 0x3a ∨ (toDigit 16 c).isSome := by
  have hjoined {l : List Str} (hl : ∀ g ∈ l, IsHexGroup g) (hmem : c ∈ joinGroups l) :
      c = 0x3a ∨ (toDigit 16 c).isSome :=
    (mem_joinGroups hmem).imp_right fun ⟨g, hg, hcg⟩ => (hl g hg).isHex c hcg
  cases h with
  | full hgs hlength => exact hjoined hgs hc
  | compressed hls hrs hlength =>
      rw [List.mem_append, List.mem_append] at hc
      obtain (hc | hc) | hc := hc
      · exact hjoined hls hc
      · exact .inl (by simpa using hc)
      · exact hjoined hrs hc

theorem isBlank_of_literal (c : UInt8) (hc : c = 0x3a ∨ (toDigit 16 c).isSome) :
    isBlank c = false ∧ c ≠ 0x23 := by
  revert c
  decide +kernel

theorem Ip6Literal.isBlank {t : Str} {gs : List Str} (h : Ip6Literal t gs) :
    ∀ c ∈ t, isBlank c = false :=
  fun c hc => (isBlank_of_literal c (h.of_mem hc)).1

/-- A line that begins with a literal is neither empty nor a comment. -/
theorem not_skipped {t s : Str} {gs : List Str} (h : Ip6Literal t gs) :
    ¬(t ++ s = [] ∨ (t ++ s).head? = some 0x23) := by
  obtain ⟨c, t', rfl⟩ := List.exists_cons_of_ne_nil h.ne_nil
  rintro (heq | hhead)
  · exact absurd heq (by simp)
  · exact (isBlank_of_literal c (h.of_mem List.mem_cons_self)).2 (Option.some.inj hhead)

theorem splitRuns_eq_pair_of_twoFields {s first last : Str} (h : TwoFields s first last) :
    splitRuns isBlank s = [first, last] := by
  obtain ⟨gap, hs, hne, hgap, hfirst, hlast⟩ := h
  exact splitRuns_eq_pair_iff.mpr ⟨gap, hs, hne, hgap, hfirst.2, hlast.2⟩

/-- What the rule tests when it emits a range. -/
theorem ip6Rule_eq_emit_iff (line first last : Str) :
    ip6Rule line = .emit first last ↔
      ¬(trimLine line = [] ∨ (trimLine line).head? = some 0x23) ∧
      splitRuns isBlank (trimLine line) = [first, last] ∧
      ip6Ok first = true ∧ ip6Ok last = true ∧ ¬ip6Key last < ip6Key first := by
  simp only [ip6Rule]
  split_ifs with hskip
  · simp [hskip]
  · split
    · next f l hsplit =>
      rw [hsplit]
      split_ifs with hbad hlt
      · simp only [Bool.or_eq_true, Bool.not_eq_true'] at hbad
        simp only [false_iff, List.cons.injEq, and_true]
        rintro ⟨-, ⟨rfl, rfl⟩, hf, hl, -⟩
        simp [hf, hl] at hbad
      · simp only [false_iff, List.cons.injEq, and_true]
        rintro ⟨-, ⟨rfl, rfl⟩, -, -, hle⟩
        exact hle hlt
      · simp only [Bool.or_eq_true, Bool.not_eq_true', not_or, Bool.not_eq_false] at hbad
        simp only [Ip6Rule.emit.injEq, List.cons.injEq, and_true]
        constructor
        · rintro ⟨rfl, rfl⟩
          exact ⟨hskip, ⟨rfl, rfl⟩, hbad.1, hbad.2, hlt⟩
        · exact fun h => h.2.1
    · next hsplit =>
      simp only [reduceCtorEq, false_iff]
      exact fun h => hsplit first last h.2.1

/-- A range is emitted if and only if the line is two literals, the first at most the second; a
literal has a key of 32 hexadecimal digits, and keys are ordered as the addresses. -/
theorem ip6Rule_exact (line first last : Str) :
    (ip6Rule line = .emit first last ↔
      ∃ gs hs, TwoFields (trimLine line) first last ∧ Ip6Literal first gs ∧ Ip6Literal last hs ∧
        ip6Value gs ≤ ip6Value hs) ∧
    (∀ t, ip6Ok t = true ↔ ∃ gs, Ip6Literal t gs) ∧
    (∀ t gs, Ip6Literal t gs →
      (ip6Key t).length = 32 ∧ ∀ c ∈ ip6Key t, (toDigit 16 c).isSome) ∧
    ∀ t u gs hs, Ip6Literal t gs → Ip6Literal u hs →
      (ip6Key t < ip6Key u ↔ ip6Value gs < ip6Value hs) := by
  refine ⟨?_, ip6Ok_iff, fun t gs h => ⟨length_ip6Key h, fun c hc => ?_⟩,
    fun t u gs hs ht hu => ip6Key_lt_iff ht hu⟩
  · rw [ip6Rule_eq_emit_iff, ip6Ok_iff, ip6Ok_iff]
    constructor
    · rintro ⟨-, hsplit, ⟨gs, hgs⟩, ⟨hs, hhs⟩, hle⟩
      obtain ⟨gap, hline, hne, hgap, hfirst, hlast⟩ := splitRuns_eq_pair_iff.mp hsplit
      rw [ip6Key_lt_iff hhs hgs, not_lt] at hle
      exact ⟨gs, hs, ⟨gap, hline, hne, hgap, ⟨hgs.ne_nil, hfirst⟩, hhs.ne_nil, hlast⟩, hgs, hhs,
        hle⟩
    · rintro ⟨gs, hs, htwo, hgs, hhs, hle⟩
      refine ⟨?_, splitRuns_eq_pair_of_twoFields htwo, ⟨gs, hgs⟩, ⟨hs, hhs⟩, ?_⟩
      · obtain ⟨gap, hline, -⟩ := htwo
        rw [hline, List.append_assoc]
        exact not_skipped hgs
      · rw [ip6Key_lt_iff hhs hgs, not_lt]
        exact hle
  · have hall : ∀ c, IsKeyChar c → (toDigit 16 c).isSome := by
      decide +kernel
    exact hall c (isKeyChar_ip6Key h c hc)

/-! ### The program over a file -/

/-- Whether the rule emits a range. -/
def Ip6Rule.isEmit : Ip6Rule → Bool
  | .emit _ _ => true
  | _ => false

/-- The output is that of the lines, and the counters count the ranges and the lines skipped. -/
theorem ip6Filter_out (lines : List Str) :
    (ip6Filter lines).out = lines.flatMap (fun line => (ip6Rule line).text) ∧
    (ip6Filter lines).cnt = lines.countP (fun line => (ip6Rule line).isEmit) ∧
    (ip6Filter lines).bad = lines.countP (fun line => ip6Rule line = .bad) := by
  induction lines using List.reverseRecOn with
  | nil => exact ⟨rfl, rfl, rfl⟩
  | append_singleton lines line ih =>
      obtain ⟨hout, hcnt, hbad⟩ := ih
      rw [ip6Filter, List.foldl_append, ← ip6Filter, List.foldl_cons, List.foldl_nil,
        List.flatMap_append, List.countP_append, List.countP_append, ← hout, ← hcnt, ← hbad,
        ip6FilterStep]
      cases hrule : ip6Rule line with
      | next => simp [hrule, Ip6Rule.text, Ip6Rule.isEmit]
      | bad => simp [hrule, Ip6Rule.text, Ip6Rule.isEmit]
      | emit first last => simp [hrule, Ip6Rule.text, Ip6Rule.isEmit]

/-- The program fails if no line is a range. -/
theorem ip6Filter_status (lines : List Str) :
    (ip6Filter lines).status = 1 ↔ ∀ line ∈ lines, (ip6Rule line).isEmit = false := by
  rw [Ip6Filter.status, (ip6Filter_out lines).2.1]
  split_ifs with h
  · simpa [List.countP_eq_zero] using h
  · simpa [List.countP_eq_zero] using h

end XtpRs.Scripts
