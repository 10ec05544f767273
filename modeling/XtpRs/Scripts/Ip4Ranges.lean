import XtpRs.Lib.Ere
import XtpRs.Scripts.Ip4Cidr

/-!
# The filter for IPv4 networks

`update_china_ips` of `contrib/usr/libexec/xtp-rs/update-chnroute.sh` selects the lines of a
downloaded text that are IPv4 networks by a regular expression, strips blanks, sorts them, and
writes the elements of an `nft` set, a single address as a network of its own. The expression has no
prefix of length zero. The text has no NUL byte, since `grep` would take it for a binary file.

## Main definitions

* `ip4LineRe`, `ip4Filter`, `ip4Elements`: the pipeline and the awk program.

## Main results

* `mem_ip4LineRe_iff`: the lines that are selected.
* `mem_ip4Filter_iff`: what the pipeline lets through.
-/

namespace XtpRs.Scripts

open Lib Lib.Ere RegularExpression

/-! ### Lines -/

/-- The lines of a text; the last one may lack its newline. -/
def fileLines (s : Str) : List Str :=
  let lines := s.splitOnP (· == 0x0a)
  if lines.getLast? = some [] then lines.dropLast else lines

/-- The text with the given lines. -/
def unlines (lines : List Str) : Str :=
  lines.flatMap (· ++ [0x0a])

theorem splitOnP_unlines {lines : List Str} (hlines : ∀ l ∈ lines, 0x0a ∉ l) :
    (unlines lines).splitOnP (· == 0x0a) = lines ++ [[]] := by
  induction lines with
  | nil => rfl
  | cons l lines ih =>
      obtain ⟨hl, hlines⟩ := List.forall_mem_cons.mp hlines
      have hcons : unlines (l :: lines) = l ++ 0x0a :: unlines lines := by
        simp [unlines]
      have hsingle : l.splitOnP (fun c : UInt8 => c == 0x0a) = [l] :=
        List.splitOnP_eq_singleton fun c hc => beq_eq_false_iff_ne.mpr fun h => hl (h ▸ hc)
      rw [hcons, List.splitOnP_append_cons _ _ (by decide), ih hlines, hsingle,
        List.singleton_append, List.cons_append]

/-- Lines are read back. -/
theorem fileLines_unlines {lines : List Str} (hlines : ∀ l ∈ lines, 0x0a ∉ l) :
    fileLines (unlines lines) = lines := by
  simp only [fileLines, splitOnP_unlines hlines]
  rw [if_pos (by simp), List.dropLast_concat]

/-! ### The program -/

/-- The bracket expression `[lo-hi]` of digits. -/
def digitRange (lo hi : ℕ) : List UInt8 :=
  (List.range (hi + 1 - lo)).map fun d => digitChar (lo + d)

/-- `[[:space:]]` within a line. -/
def spaceChars : List UInt8 :=
  [0x20, 0x09, 0x0b, 0x0c, 0x0d]

/-- `25[0-5]|2[0-4][0-9]|1[0-9]{2}|[1-9]?[0-9]` -/
def octetRe : RegularExpression UInt8 :=
  text [0x32, 0x35] * oneOf (digitRange 0 5) +
    text [0x32] * oneOf (digitRange 0 4) * oneOf (digitRange 0 9) +
    text [0x31] * (oneOf (digitRange 0 9) * oneOf (digitRange 0 9)) +
    opt (oneOf (digitRange 1 9)) * oneOf (digitRange 0 9)

/-- `(octet\.){3}octet` -/
def dottedRe : RegularExpression UInt8 :=
  octetRe * text [0x2e] * (octetRe * text [0x2e]) * (octetRe * text [0x2e]) * octetRe

/-- `3[0-2]|[12][0-9]|[1-9]` -/
def prefixRe : RegularExpression UInt8 :=
  text [0x33] * oneOf (digitRange 0 2) + oneOf (digitRange 1 2) * oneOf (digitRange 0 9) +
    oneOf (digitRange 1 9)

/-- The expression between `^` and `$`. -/
def ip4LineRe : RegularExpression UInt8 :=
  (oneOf spaceChars).star * dottedRe * opt (text [0x2f] * prefixRe) * (oneOf spaceChars).star

/-- `sed -E 's/^[[:space:]]+//; s/[[:space:]]+$//'` -/
def stripSpaces (line : Str) : Str :=
  (line.dropWhile (· ∈ spaceChars)).rdropWhile (· ∈ spaceChars)

/-- `LC_ALL=C sort -u` -/
def sortUnique (lines : List Str) : List Str :=
  (lines.insertionSort (· ≤ ·)).dedup

/-- The pipeline from the downloaded text to the file of networks. -/
def ip4Filter (src : Str) : Str :=
  unlines (sortUnique (((fileLines src).filter ip4LineRe.rmatch).map stripSpaces))

/-- `if (cidr !~ /\//) cidr = cidr "/32"` -/
def withPrefix (cidr : Str) : Str :=
  if 0x2f ∈ cidr then cidr else cidr ++ ascii "/32"

/-- The output of the awk program and its variable `first`. -/
structure Ip4Elements where
  out : Str := []
  first : Bool := true
  deriving DecidableEq, Repr

/-- The rule of the program. -/
def ip4ElementsStep (st : Ip4Elements) (line : Str) : Ip4Elements :=
  let element := ascii "      " ++ withPrefix line ++ ascii ","
  if st.first then ⟨st.out ++ element, false⟩
  else ⟨st.out ++ 0x0a :: element, false⟩

/-- The program, with its end. -/
def ip4Elements (lines : List Str) : Str :=
  (lines.foldl ip4ElementsStep {}).out ++ [0x0a]

/-! ### The expression -/

theorem mem_digitRange {lo hi : ℕ} {c : UInt8} :
    c ∈ digitRange lo hi ↔ ∃ d, lo ≤ d ∧ d ≤ hi ∧ c = digitChar d := by
  rw [digitRange, List.mem_map]
  constructor
  · rintro ⟨d, hd, rfl⟩
    have hd := List.mem_range.mp hd
    exact ⟨lo + d, by omega, by omega, rfl⟩
  · rintro ⟨d, hlo, hhi, rfl⟩
    exact ⟨d - lo, List.mem_range.mpr (by omega), by rw [Nat.add_sub_cancel' hlo]⟩

theorem mem_oneOf_digitRange {lo hi : ℕ} {s : Str} :
    s ∈ (oneOf (digitRange lo hi)).matches' ↔ ∃ d, lo ≤ d ∧ d ≤ hi ∧ s = [digitChar d] := by
  rw [mem_oneOf]
  constructor
  · rintro ⟨c, hc, rfl⟩
    obtain ⟨d, hlo, hhi, rfl⟩ := mem_digitRange.mp hc
    exact ⟨d, hlo, hhi, rfl⟩
  · rintro ⟨d, hlo, hhi, rfl⟩
    exact ⟨digitChar d, mem_digitRange.mpr ⟨d, hlo, hhi, rfl⟩, rfl⟩

/-- The alternatives of an octet are the numbers up to 255. -/
theorem mem_octetRe {s : Str} : s ∈ octetRe.matches' ↔ ∃ n < 256, s = decimalText n := by
  simp only [octetRe, mem_add, mem_mul, mem_opt, mem_text, mem_oneOf_digitRange]
  constructor
  · rintro (((⟨_, rfl, _, ⟨z, -, hz, rfl⟩, rfl⟩ |
      ⟨_, ⟨_, rfl, _, ⟨y, -, hy, rfl⟩, rfl⟩, _, ⟨z, -, hz, rfl⟩, rfl⟩) |
      ⟨_, rfl, _, ⟨_, ⟨y, -, hy, rfl⟩, _, ⟨z, -, hz, rfl⟩, rfl⟩, rfl⟩) |
      ⟨_, rfl | ⟨y, hy, hy', rfl⟩, _, ⟨z, -, hz, rfl⟩, rfl⟩)
    · exact ⟨2 * 100 + 5 * 10 + z, by omega,
        (decimalText_three (x := 2) (y := 5) (by omega) (by omega) (by omega)).symm⟩
    · exact ⟨2 * 100 + y * 10 + z, by omega,
        (decimalText_three (x := 2) (by omega) (by omega) (by omega)).symm⟩
    · exact ⟨1 * 100 + y * 10 + z, by omega,
        (decimalText_three (x := 1) (by omega) (by omega) (by omega)).symm⟩
    · exact ⟨z, by omega, (decimalText_one (by omega)).symm⟩
    · exact ⟨y * 10 + z, by omega, (decimalText_two hy (by omega) (by omega)).symm⟩
  · rintro ⟨n, hn, rfl⟩
    unfold decimalText
    split_ifs with h10 h100
    · exact .inr ⟨[], .inl rfl, _, ⟨n, by omega, by omega, rfl⟩, rfl⟩
    · exact .inr ⟨_, .inr ⟨n / 10, by omega, by omega, rfl⟩, _,
        ⟨n % 10, by omega, by omega, rfl⟩, rfl⟩
    · by_cases h200 : n < 200
      · have h1 : n / 100 = 1 := by omega
        rw [h1]
        exact .inl (.inr ⟨_, rfl, _, ⟨_, ⟨n / 10 % 10, by omega, by omega, rfl⟩, _,
          ⟨n % 10, by omega, by omega, rfl⟩, rfl⟩, rfl⟩)
      · have h2 : n / 100 = 2 := by omega
        rw [h2]
        by_cases h250 : n < 250
        · exact .inl (.inl (.inr ⟨_, ⟨_, rfl, _, ⟨n / 10 % 10, by omega, by omega, rfl⟩, rfl⟩, _,
            ⟨n % 10, by omega, by omega, rfl⟩, rfl⟩))
        · have h5 : n / 10 % 10 = 5 := by omega
          rw [h5]
          exact .inl (.inl (.inl ⟨_, rfl, _, ⟨n % 10, by omega, by omega, rfl⟩, rfl⟩))

theorem mem_prefixRe {s : Str} :
    s ∈ prefixRe.matches' ↔ ∃ n, 1 ≤ n ∧ n ≤ 32 ∧ s = decimalText n := by
  simp only [prefixRe, mem_add, mem_mul, mem_text, mem_oneOf_digitRange]
  constructor
  · rintro ((⟨_, rfl, _, ⟨z, -, hz, rfl⟩, rfl⟩ |
      ⟨_, ⟨y, hy, hy', rfl⟩, _, ⟨z, -, hz, rfl⟩, rfl⟩) | ⟨z, hz, hz', rfl⟩)
    · exact ⟨3 * 10 + z, by omega, by omega,
        (decimalText_two (x := 3) (by omega) (by omega) (by omega)).symm⟩
    · exact ⟨y * 10 + z, by omega, by omega,
        (decimalText_two hy (by omega) (by omega)).symm⟩
    · exact ⟨z, hz, by omega, (decimalText_one (by omega)).symm⟩
  · rintro ⟨n, hn, hn', rfl⟩
    unfold decimalText
    split_ifs with h10 h100
    · exact .inr ⟨n, hn, by omega, rfl⟩
    · by_cases h30 : n < 30
      · exact .inl (.inr ⟨_, ⟨n / 10, by omega, by omega, rfl⟩, _,
          ⟨n % 10, by omega, by omega, rfl⟩, rfl⟩)
      · have h3 : n / 10 = 3 := by omega
        rw [h3]
        exact .inl (.inl ⟨_, rfl, _, ⟨n % 10, by omega, by omega, rfl⟩, rfl⟩)
    · omega

theorem mem_dottedRe {s : Str} : s ∈ dottedRe.matches' ↔ ∃ ip, s = dotted ip := by
  simp only [dottedRe, mem_mul, mem_octetRe, mem_text]
  constructor
  · rintro ⟨_, ⟨_, ⟨_, ⟨_, ⟨a, ha, rfl⟩, _, rfl, rfl⟩, _, ⟨_, ⟨b, hb, rfl⟩, _, rfl, rfl⟩, rfl⟩, _,
      ⟨_, ⟨c, hc, rfl⟩, _, rfl, rfl⟩, rfl⟩, _, ⟨d, hd, rfl⟩, rfl⟩
    refine ⟨⟨UInt8.ofNat a, UInt8.ofNat b, UInt8.ofNat c, UInt8.ofNat d⟩, ?_⟩
    have hnat (n : ℕ) (hn : n < 256) : (UInt8.ofNat n).toNat = n := by
      rw [UInt8.toNat_ofNat']
      omega
    simp [dotted, Ipv4Addr.octets, hnat, ha, hb, hc, hd, List.intercalate_cons_cons]
  · rintro ⟨⟨a, b, c, d⟩, rfl⟩
    exact ⟨_, ⟨_, ⟨_, ⟨_, ⟨a.toNat, a.toNat_lt, rfl⟩, _, rfl, rfl⟩, _,
      ⟨_, ⟨b.toNat, b.toNat_lt, rfl⟩, _, rfl, rfl⟩, rfl⟩, _,
      ⟨_, ⟨c.toNat, c.toNat_lt, rfl⟩, _, rfl, rfl⟩, rfl⟩, _, ⟨d.toNat, d.toNat_lt, rfl⟩,
      by simp [dotted, Ipv4Addr.octets, List.intercalate_cons_cons]⟩

/-- A line is selected if it is a network, of a prefix that is not empty, between blanks. -/
theorem mem_ip4LineRe_iff (line : Str) :
    ip4LineRe.rmatch line = true ↔ ∃ a t b, line = a ++ t ++ b ∧ (∀ c ∈ a, c ∈ spaceChars) ∧
      (∀ c ∈ b, c ∈ spaceChars) ∧ ∃ net, Ip4Cidr t net ∧ 1 ≤ net.prefixLen := by
  rw [rmatch_iff_matches']
  simp only [ip4LineRe, mem_mul, mem_star_oneOf, mem_dottedRe, mem_opt, mem_text, mem_prefixRe]
  constructor
  · rintro ⟨_, ⟨_, ⟨a, ha, _, ⟨ip, rfl⟩, rfl⟩, _, rfl | ⟨_, rfl, _, ⟨n, hn, hn', rfl⟩, rfl⟩, rfl⟩,
      b, hb, rfl⟩
    · exact ⟨a, dotted ip, b, by simp, ha, hb, _, .address ip, by simp⟩
    · exact ⟨a, dotted ip ++ 0x2f :: decimalText n, b, by simp, ha, hb, _, .network ip n hn', hn⟩
  · rintro ⟨a, t, b, rfl, ha, hb, net, hnet, hlen⟩
    cases hnet with
    | address ip =>
        exact ⟨_, ⟨_, ⟨a, ha, _, ⟨ip, rfl⟩, rfl⟩, [], .inl rfl, rfl⟩, b, hb, by simp⟩
    | network ip n hn =>
        exact ⟨_, ⟨_, ⟨a, ha, _, ⟨ip, rfl⟩, rfl⟩, _, .inr ⟨_, rfl, _, ⟨n, hlen, hn, rfl⟩, rfl⟩,
          rfl⟩, b, hb, by simp⟩

/-! ### The pipeline -/

/-- A line that stands for a network: its text between blanks. -/
def Ip4Line (line t : Str) (net : IpNet) : Prop :=
  ∃ a b, line = a ++ t ++ b ∧ (∀ c ∈ a, c ∈ spaceChars) ∧ (∀ c ∈ b, c ∈ spaceChars) ∧
    Ip4Cidr t net ∧ 1 ≤ net.prefixLen

theorem Ip4Cidr.ne_nil {t : Str} {net : IpNet} (h : Ip4Cidr t net) : t ≠ [] := by
  have hvalid := (isValidIpv4Cidr_iff ⟨65535, le_rfl⟩ t).mpr ⟨net, h⟩
  exact (isIp4Char_of_isValid hvalid).1

theorem Ip4Cidr.isIp4Char {t : Str} {net : IpNet} (h : Ip4Cidr t net) {c : UInt8} (hc : c ∈ t) :
    isIp4Char c = true := by
  have hvalid := (isValidIpv4Cidr_iff ⟨65535, le_rfl⟩ t).mpr ⟨net, h⟩
  exact (isIp4Char_of_isValid hvalid).2 c hc

theorem spaceChars_of_isIp4Char {c : UInt8} (hc : Scripts.isIp4Char c = true) :
    c ∉ spaceChars ∧ c ≠ 0x0a ∧ c ≠ 0x20 ∧ c ≠ 0x2c := by
  revert c
  decide +kernel

/-- Stripping a line leaves the text between the blanks. -/
theorem stripSpaces_of_ip4Line {line t : Str} {net : IpNet} (h : Ip4Line line t net) :
    stripSpaces line = t := by
  obtain ⟨a, b, rfl, ha, hb, hnet, -⟩ := h
  have hnot (c : UInt8) (hc : c ∈ t) : c ∉ spaceChars :=
    (spaceChars_of_isIp4Char (hnet.isIp4Char hc)).1
  have hfirst : (a ++ t ++ b).dropWhile (· ∈ spaceChars) = t ++ b := by
    obtain ⟨c, t, rfl⟩ := List.exists_cons_of_ne_nil hnet.ne_nil
    rw [List.append_assoc, List.dropWhile_append_of_pos fun c hc => by simpa using ha c hc,
      List.cons_append, List.dropWhile_cons_of_neg (by simpa using hnot c List.mem_cons_self)]
  have hall : ∀ c ∈ b.reverse, decide (c ∈ spaceChars) = true := fun c hc => by
    simpa using hb c (List.mem_reverse.mp hc)
  rw [stripSpaces, hfirst, List.rdropWhile, List.reverse_append,
    List.dropWhile_append_of_pos hall, ← List.rdropWhile, List.rdropWhile_eq_self_iff]
  exact fun hne => by simpa using hnot _ (List.getLast_mem hne)

/-- The lines that are selected and stripped. -/
theorem mem_ip4Lines_iff (src t : Str) :
    t ∈ ((fileLines src).filter ip4LineRe.rmatch).map stripSpaces ↔
      ∃ line ∈ fileLines src, ∃ net, Ip4Line line t net := by
  rw [List.mem_map]
  constructor
  · rintro ⟨line, hline, rfl⟩
    obtain ⟨hmem, hmatch⟩ := List.mem_filter.mp hline
    obtain ⟨a, t, b, heq, ha, hb, net, hnet, hlen⟩ := (mem_ip4LineRe_iff line).mp hmatch
    have h : Ip4Line line t net := ⟨a, b, heq, ha, hb, hnet, hlen⟩
    exact ⟨line, hmem, net, stripSpaces_of_ip4Line h ▸ h⟩
  · rintro ⟨line, hmem, net, h⟩
    refine ⟨line, List.mem_filter.mpr ⟨hmem, ?_⟩, stripSpaces_of_ip4Line h⟩
    obtain ⟨a, b, heq, ha, hb, hnet, hlen⟩ := h
    exact (mem_ip4LineRe_iff line).mpr ⟨a, t, b, heq, ha, hb, net, hnet, hlen⟩

theorem mem_sortUnique {lines : List Str} {l : Str} : l ∈ sortUnique lines ↔ l ∈ lines := by
  rw [sortUnique, List.mem_dedup, List.mem_insertionSort]

/-- The lines of the file of networks. -/
def ip4Texts (src : Str) : List Str :=
  sortUnique (((fileLines src).filter ip4LineRe.rmatch).map stripSpaces)

theorem mem_ip4Texts {src t : Str} :
    t ∈ ip4Texts src ↔ ∃ line ∈ fileLines src, ∃ net, Ip4Line line t net :=
  mem_sortUnique.trans (mem_ip4Lines_iff src t)

theorem fileLines_ip4Filter (src : Str) : fileLines (ip4Filter src) = ip4Texts src := by
  refine fileLines_unlines fun t ht hnewline => ?_
  obtain ⟨line, -, net, a, b, -, -, -, hnet, -⟩ := mem_ip4Texts.mp ht
  exact (spaceChars_of_isIp4Char (hnet.isIp4Char hnewline)).2.1 rfl

/-! ### The elements -/

/-- The line of an element. -/
def elementLine (e : Str) : Str :=
  ascii "      " ++ e ++ ascii ","

theorem unlines_concat (lines : List Str) (l : Str) :
    unlines (lines ++ [l]) = unlines lines ++ (l ++ [0x0a]) := by
  rw [unlines, List.flatMap_append, List.flatMap_singleton, ← unlines]

theorem foldl_ip4ElementsStep (lines : List Str) :
    (lines.foldl ip4ElementsStep {}).first = lines.isEmpty ∧
      (lines ≠ [] →
        ip4Elements lines = unlines (lines.map fun l => elementLine (withPrefix l))) := by
  induction lines using List.reverseRecOn with
  | nil => exact ⟨rfl, fun h => absurd rfl h⟩
  | append_singleton lines l ih =>
      obtain ⟨hfirst, hout⟩ := ih
      rw [ip4Elements, List.foldl_append, List.foldl_cons, List.foldl_nil, ip4ElementsStep, hfirst,
        List.map_append, List.map_singleton, unlines_concat]
      cases lines with
      | nil => simp [unlines, elementLine]
      | cons k lines =>
          have hnot : (k :: lines).isEmpty = false := rfl
          have hrest := hout (by simp)
          rw [ip4Elements] at hrest
          rw [hnot, if_neg Bool.false_ne_true, ← hrest]
          simp [elementLine]

/-- The program writes a line for each network, if there is one. -/
theorem ip4Elements_eq {lines : List Str} (hlines : lines ≠ []) :
    ip4Elements lines = unlines (lines.map fun l => elementLine (withPrefix l)) :=
  (foldl_ip4ElementsStep lines).2 hlines

/-- Every element is written as a network, the same as its text. -/
theorem Ip4Cidr.withPrefix {t : Str} {net : IpNet} (h : Ip4Cidr t net) :
    Ip4Cidr (withPrefix t) net := by
  cases h with
  | address ip =>
      have h32 : Scripts.withPrefix (dotted ip) = dotted ip ++ 0x2f :: decimalText 32 :=
        if_neg (slash_notMem_dotted ip)
      rw [h32]
      exact .network ip 32 le_rfl
  | network ip n hn =>
      have hself : Scripts.withPrefix (dotted ip ++ 0x2f :: decimalText n) =
          dotted ip ++ 0x2f :: decimalText n := if_pos (by simp)
      rw [hself]
      exact .network ip n hn

end XtpRs.Scripts
