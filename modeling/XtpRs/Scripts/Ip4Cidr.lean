import XtpRs.Scripts.Capture
import XtpRs.Scripts.PortList

/-!
# Networks in the settings of the scripts

`is_valid_ipv4_cidr` of `contrib/usr/libexec/xtp-rs/common.sh` tests whether a text is an IPv4
address or network before it is written into an `nft` rule, with shell patterns and word splitting
only. `normalize_ip_cidr_list` reads a list of them, and `saddr_bypass_rules_nft` writes a rule for
each.

What the texts mean is said without the test: `Ip4Cidr s net` holds if `s` is the network `net`, in
decimal numbers without zeros in front.

## Main definitions

* `Ip4Cidr`: the texts of networks.
* `isValidIpv4Cidr`, `normalizeIpCidrList`, `saddrBypassRulesNft`: the functions of the script.

## Main results

* `isValidIpv4Cidr_iff`: exactly the texts of networks pass the test.
* `saddrBypassRules_exact`: the rules written are those of the networks of the setting.
-/

namespace XtpRs.Scripts

open Lib

/-! ### Decimal numbers -/

/-- The character of a digit. -/
def digitChar (d : ℕ) : UInt8 :=
  UInt8.ofNat (0x30 + d)

/-- A number below 1000 in decimal, without zeros in front. -/
def decimalText (n : ℕ) : Str :=
  if n < 10 then [digitChar n]
  else if n < 100 then [digitChar (n / 10), digitChar (n % 10)]
  else [digitChar (n / 100), digitChar (n / 10 % 10), digitChar (n % 10)]

theorem toNat_digitChar {d : ℕ} (hd : d < 10) : (digitChar d).toNat = 0x30 + d := by
  rw [digitChar, UInt8.toNat_ofNat']
  omega

theorem isDigit_digitChar {d : ℕ} (hd : d < 10) : isDigit (digitChar d) = true := by
  simp only [isDigit, Bool.and_eq_true, decide_eq_true_eq, UInt8.le_iff_toNat_le,
    toNat_digitChar hd, UInt8.toNat_ofNat]
  omega

theorem exists_digitChar {c : UInt8} (hc : isDigit c = true) : ∃ d < 10, c = digitChar d := by
  simp only [isDigit, Bool.and_eq_true, decide_eq_true_eq, UInt8.le_iff_toNat_le,
    UInt8.toNat_ofNat] at hc
  refine ⟨c.toNat - 0x30, by omega, UInt8.toNat_inj.mp ?_⟩
  rw [toNat_digitChar (by omega)]
  omega

theorem digitChar_inj {d e : ℕ} (hd : d < 10) (he : e < 10) (h : digitChar d = digitChar e) :
    d = e := by
  have h := congrArg UInt8.toNat h
  rw [toNat_digitChar hd, toNat_digitChar he] at h
  omega

theorem decimalText_one {x : ℕ} (hx : x < 10) : decimalText x = [digitChar x] :=
  if_pos hx

theorem decimalText_two {x y : ℕ} (hx : 1 ≤ x) (hx' : x < 10) (hy : y < 10) :
    decimalText (x * 10 + y) = [digitChar x, digitChar y] := by
  have h10 : (x * 10 + y) / 10 = x := by omega
  have h1 : (x * 10 + y) % 10 = y := by omega
  rw [decimalText, if_neg (by omega), if_pos (by omega), h10, h1]

theorem decimalText_three {x y z : ℕ} (hx : 1 ≤ x) (hy : y < 10) (hz : z < 10) :
    decimalText (x * 100 + y * 10 + z) = [digitChar x, digitChar y, digitChar z] := by
  have h100 : (x * 100 + y * 10 + z) / 100 = x := by omega
  have h10 : (x * 100 + y * 10 + z) / 10 % 10 = y := by omega
  have h1 : (x * 100 + y * 10 + z) % 10 = z := by omega
  rw [decimalText, if_neg (by omega), if_neg (by omega), h100, h10, h1]

section DecimalText

variable {n : ℕ} (hn : n < 1000)

include hn

theorem isNumber_decimalText : IsNumber (decimalText n) := by
  have hdigit (d : ℕ) (hd : d < 10) : isDigit (digitChar d) = true := isDigit_digitChar hd
  unfold decimalText
  split_ifs
  · exact ⟨by simp, by simpa using hdigit n (by omega)⟩
  · exact ⟨by simp, by simpa using ⟨hdigit (n / 10) (by omega), hdigit (n % 10) (by omega)⟩⟩
  · exact ⟨by simp, by simpa using ⟨hdigit (n / 100) (by omega), hdigit (n / 10 % 10) (by omega),
      hdigit (n % 10) (by omega)⟩⟩

theorem decimalValue_decimalText : decimalValue (decimalText n) = n := by
  unfold decimalText
  split_ifs <;> simp only [decimalValue, List.foldl_cons, List.foldl_nil]
  · rw [toNat_digitChar (by omega)]
    omega
  · rw [toNat_digitChar (by omega), toNat_digitChar (by omega)]
    omega
  · rw [toNat_digitChar (by omega), toNat_digitChar (by omega), toNat_digitChar (by omega)]
    omega

theorem decimalText_inj {m : ℕ} (hm : m < 1000) (h : decimalText m = decimalText n) : m = n := by
  rw [← decimalValue_decimalText hm, h, decimalValue_decimalText hn]

end DecimalText

/-! ### Texts of networks -/

/-- An address in dotted decimal notation. -/
def dotted (ip : Ipv4Addr) : Str :=
  [(0x2e : UInt8)].intercalate (ip.octets.map fun o => decimalText o.toNat)

/-- A text and the network it stands for; an address stands for the network of this address. -/
inductive Ip4Cidr : Str → IpNet → Prop
  | address (ip : Ipv4Addr) : Ip4Cidr (dotted ip) ⟨.v4 ip, 32⟩
  | network (ip : Ipv4Addr) (prefixLen : ℕ) (h : prefixLen ≤ 32) :
      Ip4Cidr (dotted ip ++ 0x2f :: decimalText prefixLen) ⟨.v4 ip, prefixLen⟩

/-! ### The functions -/

namespace TestCommand

variable (sh : TestCommand)

/-- `[ s -le n ]`. -/
def le (s : Str) (n : ℕ) : TestStatus := sh.compare (fun v n => decide (v ≤ n)) s n

end TestCommand

/-- The characters `[0-9./]`. -/
def isIp4Char (c : UInt8) : Bool :=
  isDigit c || c == 0x2e || c == 0x2f

/-- `[1-9]` -/
def isDigit19 (c : UInt8) : Bool :=
  0x31 ≤ c && c ≤ 0x39

/-- `${s%%/*}` -/
def beforeSlash (s : Str) : Str :=
  s.takeWhile (· != 0x2f)

/-- `${s#*/}`: the whole text if there is no slash. -/
def afterSlash (s : Str) : Str :=
  if 0x2f ∈ s then (s.dropWhile (· != 0x2f)).tail else s

/-- `tr '.' ' '` -/
def trDot (c : UInt8) : UInt8 :=
  if c = 0x2e then 0x20 else c

/-- `[0-9]|[1-9][0-9]|[1-9][0-9][0-9]` -/
def isOctetPattern : Str → Bool
  | [a] => isDigit a
  | [a, b] => isDigit19 a && isDigit b
  | [a, b, c] => isDigit19 a && isDigit b && isDigit c
  | _ => false

/-- `[0-9]|[12][0-9]|3[0-2]` -/
def isPrefixPattern : Str → Bool
  | [a] => isDigit a
  | [a, b] =>
    (a == 0x31 || a == 0x32) && isDigit b || a == 0x33 && (0x30 ≤ b && b ≤ 0x32)
  | _ => false

/-- The body of the loop over the octets: it goes on. -/
def octetLoopStep (sh : TestCommand) (o : Str) : Bool :=
  if o.any (fun c => !isDigit c) || o.isEmpty then false
  else if !isOctetPattern o then false
  else sh.le o 255 = .success

/-- `is_valid_ipv4_cidr`. -/
def isValidIpv4Cidr (sh : TestCommand) (s : Str) : Bool :=
  if s.any (fun c => !isIp4Char c) || s.isEmpty then false
  else
    let addr := beforeSlash s
    let tail := afterSlash s
    if tail.contains 0x2f then false
    else if addr.isEmpty then false
    -- `tr -cd '.' | wc -c`
    else if addr.count 0x2e ≠ 3 then false
    else
      let octets := words (· == 0x20) (commandSubstitution ((addr ++ [0x0a]).map trDot))
      if !octets.all (octetLoopStep sh) then false
      else if octets.length ≠ 4 then false
      else if tail ≠ s then isPrefixPattern tail
      else true


/-! ### Octets and prefixes -/

theorem exists_digit19 {c : UInt8} (hc : isDigit19 c = true) :
    ∃ d < 10, 1 ≤ d ∧ c = digitChar d := by
  simp only [isDigit19, Bool.and_eq_true, decide_eq_true_eq, UInt8.le_iff_toNat_le,
    UInt8.toNat_ofNat] at hc
  refine ⟨c.toNat - 0x30, by omega, by omega, UInt8.toNat_inj.mp ?_⟩
  rw [toNat_digitChar (by omega)]
  omega

theorem isDigit19_digitChar {d : ℕ} (hd : d < 10) (hpos : 1 ≤ d) :
    isDigit19 (digitChar d) = true := by
  simp only [isDigit19, Bool.and_eq_true, decide_eq_true_eq, UInt8.le_iff_toNat_le,
    toNat_digitChar hd, UInt8.toNat_ofNat]
  omega

/-- The pattern of an octet holds for the numbers below 1000 without zeros in front. -/
theorem isOctetPattern_iff (s : Str) :
    isOctetPattern s = true ↔ ∃ n < 1000, s = decimalText n := by
  constructor
  · intro h
    match s, h with
    | [a], h =>
      obtain ⟨x, hx, rfl⟩ := exists_digitChar h
      exact ⟨x, by omega, (decimalText_one hx).symm⟩
    | [a, b], h =>
      obtain ⟨ha, hb⟩ := Bool.and_eq_true_iff.mp h
      obtain ⟨x, hx, hpos, rfl⟩ := exists_digit19 ha
      obtain ⟨y, hy, rfl⟩ := exists_digitChar hb
      exact ⟨x * 10 + y, by omega, (decimalText_two hpos hx hy).symm⟩
    | [a, b, c], h =>
      obtain ⟨hab, hc⟩ := Bool.and_eq_true_iff.mp h
      obtain ⟨ha, hb⟩ := Bool.and_eq_true_iff.mp hab
      obtain ⟨x, hx, hpos, rfl⟩ := exists_digit19 ha
      obtain ⟨y, hy, rfl⟩ := exists_digitChar hb
      obtain ⟨z, hz, rfl⟩ := exists_digitChar hc
      exact ⟨x * 100 + y * 10 + z, by omega, (decimalText_three hpos hy hz).symm⟩
  · rintro ⟨n, hn, rfl⟩
    unfold decimalText
    split_ifs
    · exact isDigit_digitChar (by omega)
    · exact Bool.and_eq_true_iff.mpr
        ⟨isDigit19_digitChar (by omega) (by omega), isDigit_digitChar (by omega)⟩
    · exact Bool.and_eq_true_iff.mpr ⟨Bool.and_eq_true_iff.mpr
        ⟨isDigit19_digitChar (by omega) (by omega), isDigit_digitChar (by omega)⟩,
        isDigit_digitChar (by omega)⟩

/-- The pattern of a prefix holds for the numbers up to 32. -/
theorem isPrefixPattern_iff (s : Str) :
    isPrefixPattern s = true ↔ ∃ n ≤ 32, s = decimalText n := by
  constructor
  · intro h
    match s, h with
    | [a], h =>
      obtain ⟨x, hx, rfl⟩ := exists_digitChar h
      exact ⟨x, by omega, (decimalText_one hx).symm⟩
    | [a, b], h =>
      simp only [isPrefixPattern, Bool.or_eq_true, Bool.and_eq_true, beq_iff_eq,
        decide_eq_true_eq] at h
      obtain ⟨ha, hb⟩ | ⟨rfl, hb⟩ := h
      · obtain ⟨y, hy, rfl⟩ := exists_digitChar hb
        obtain rfl | rfl := ha
        · exact ⟨1 * 10 + y, by omega, (decimalText_two (x := 1) (by omega) (by omega) hy).symm⟩
        · exact ⟨2 * 10 + y, by omega, (decimalText_two (x := 2) (by omega) (by omega) hy).symm⟩
      · have hdigit : isDigit b = true := by
          simp only [isDigit, Bool.and_eq_true, decide_eq_true_eq]
          exact ⟨hb.1, UInt8.le_trans hb.2 (by decide)⟩
        obtain ⟨y, hy, rfl⟩ := exists_digitChar hdigit
        have hle : y ≤ 2 := by
          have hb' : (digitChar y).toNat ≤ 0x32 := UInt8.le_iff_toNat_le.mp hb.2
          rw [toNat_digitChar hy] at hb'
          omega
        exact ⟨3 * 10 + y, by omega, (decimalText_two (x := 3) (by omega) (by omega) hy).symm⟩
  · have hall : ∀ n < 33, isPrefixPattern (decimalText n) = true := by
      decide +kernel
    rintro ⟨n, hn, rfl⟩
    exact hall n (by omega)

/-- The loop goes on exactly after an octet. -/
theorem octetLoopStep_iff (sh : TestCommand) (s : Str) :
    octetLoopStep sh s = true ↔ ∃ o : UInt8, s = decimalText o.toNat := by
  have hmax := sh.le_nativeMax
  have hle (n : ℕ) (hn : n < 1000) : sh.le (decimalText n) 255 = .success ↔ n ≤ 255 := by
    have hvalue := decimalValue_decimalText hn
    rw [TestCommand.le, TestCommand.compare, integer_of_isNumber sh (isNumber_decimalText hn),
      hvalue, if_pos (by omega)]
    simp
  constructor
  · intro h
    unfold octetLoopStep at h
    split_ifs at h with hdigits hpattern
    obtain ⟨n, hn, rfl⟩ := (isOctetPattern_iff s).mp (by simpa using hpattern)
    have hn' := (hle n hn).mp (by simpa using h)
    refine ⟨UInt8.ofNat n, congrArg decimalText ?_⟩
    rw [UInt8.toNat_ofNat']
    omega
  · rintro ⟨o, rfl⟩
    have ho : o.toNat < 256 := o.toNat_lt
    have hnum := (isNumber_iff _).mp (isNumber_decimalText (n := o.toNat) (by omega))
    have hpattern := (isOctetPattern_iff _).mpr ⟨o.toNat, by omega, rfl⟩
    rw [octetLoopStep, if_neg hnum, hpattern]
    simpa using (hle o.toNat (by omega)).mpr (by omega)

/-! ### Addresses -/

/-- The octets of an address in decimal. -/
def octetTexts (ip : Ipv4Addr) : List Str :=
  ip.octets.map fun o => decimalText o.toNat

theorem isDigit_of_mem_octetTexts {ip : Ipv4Addr} {w : Str} (hw : w ∈ octetTexts ip) :
    w ≠ [] ∧ ∀ c ∈ w, isDigit c = true := by
  obtain ⟨o, -, rfl⟩ := List.mem_map.mp hw
  have ho : o.toNat < 256 := o.toNat_lt
  exact isNumber_decimalText (by omega)

theorem isDigit_ne {c : UInt8} (hc : isDigit c = true) :
    c ≠ 0x2e ∧ c ≠ 0x2f ∧ c ≠ 0x20 ∧ c ≠ 0x0a := by
  revert c
  decide +kernel

theorem splitOnP_dotted (ip : Ipv4Addr) : (dotted ip).splitOnP (· == 0x2e) = octetTexts ip :=
  List.splitOn_intercalate 0x2e
    (fun _ hw hmem => (isDigit_ne ((isDigit_of_mem_octetTexts hw).2 _ hmem)).1 rfl)
    (by simp [Ipv4Addr.octets])

theorem dotted_inj {ip ip' : Ipv4Addr} (h : dotted ip = dotted ip') : ip = ip' := by
  have heq : octetTexts ip = octetTexts ip' := by
    rw [← splitOnP_dotted, h, splitOnP_dotted]
  have hinj (o o' : UInt8) (ho : decimalText o.toNat = decimalText o'.toNat) : o = o' := by
    have hlt := o.toNat_lt
    have hlt' := o'.toNat_lt
    exact UInt8.toNat_inj.mp (decimalText_inj (by omega) (by omega) ho)
  obtain ⟨a, b, c, d⟩ := ip
  obtain ⟨a', b', c', d'⟩ := ip'
  simp only [octetTexts, Ipv4Addr.octets, List.map_cons, List.map_nil, List.cons.injEq,
    and_true] at heq
  rw [hinj a a' heq.1, hinj b b' heq.2.1, hinj c c' heq.2.2.1, hinj d d' heq.2.2.2]

/-- Digits and dots only. -/
theorem of_mem_dotted {ip : Ipv4Addr} {c : UInt8} (hc : c ∈ dotted ip) :
    isDigit c = true ∨ c = 0x2e := by
  obtain rfl | ⟨w, hw, hcw⟩ := of_mem_intercalate hc
  · exact .inr rfl
  · exact .inl ((isDigit_of_mem_octetTexts hw).2 c hcw)

/-- The words that the loop over the octets sees. -/
theorem words_octets {addr : Str} (haddr : ∀ c ∈ addr, isDigit c = true ∨ c = 0x2e) :
    words (· == 0x20) (commandSubstitution ((addr ++ [0x0a]).map trDot)) =
      words (· == 0x2e) addr := by
  have hne (c : UInt8) (hc : c ∈ addr) : c ≠ 0x20 ∧ trDot c ≠ 0x0a := by
    have hall : ∀ c, isDigit c = true ∨ c = 0x2e → c ≠ 0x20 ∧ trDot c ≠ 0x0a := by
      decide +kernel
    exact hall c (haddr c hc)
  have hnewline : commandSubstitution ((addr ++ [0x0a]).map trDot) = addr.map trDot := by
    rw [List.map_append, commandSubstitution, List.map_singleton, trDot, if_neg (by decide),
      List.rdropWhile_concat_pos _ _ _ (by decide), List.rdropWhile_eq_self_iff]
    intro hmap heq
    obtain ⟨c, hc, hlast⟩ := List.mem_map.mp (List.getLast_mem hmap)
    exact (hne c hc).2 (hlast.trans (eq_of_beq heq))
  have hsep (c : UInt8) : (trDot c == 0x20) = (c == 0x2e || c == 0x20) := by
    revert c
    decide +kernel
  have hkeep (c : UInt8) (hc : (c == 0x2e || c == 0x20) = false) : trDot c = c := by
    exact if_neg fun h => by simp [h] at hc
  rw [hnewline, words_map trDot addr hsep hkeep]
  exact words_congr fun c hc => by simp [(hne c hc).1]

/-- Three dots and four octets make an address. -/
theorem exists_dotted_iff (sh : TestCommand) {addr : Str}
    (haddr : ∀ c ∈ addr, isDigit c = true ∨ c = 0x2e) :
    (addr.count 0x2e = 3 ∧ (words (· == 0x2e) addr).all (octetLoopStep sh) = true ∧
      (words (· == 0x2e) addr).length = 4) ↔ ∃ ip, addr = dotted ip := by
  constructor
  · rintro ⟨hcount, hall, hlength⟩
    have hsplit : words (· == 0x2e) addr = addr.splitOnP (· == 0x2e) :=
      words_eq_splitOnP_of_length (by rw [hlength, ← List.count, hcount])
    have hjoin : [(0x2e : UInt8)].intercalate (words (· == 0x2e) addr) = addr := by
      rw [hsplit]
      exact List.intercalate_splitOn 0x2e
    obtain ⟨w₁, w₂, w₃, w₄, hwords⟩ : ∃ w₁ w₂ w₃ w₄, words (· == 0x2e) addr = [w₁, w₂, w₃, w₄] := by
      match hw : words (· == 0x2e) addr, hlength with
      | [w₁, w₂, w₃, w₄], _ => exact ⟨w₁, w₂, w₃, w₄, rfl⟩
    rw [hwords] at hall hjoin
    simp only [List.all_cons, List.all_nil, Bool.and_true, Bool.and_eq_true,
      octetLoopStep_iff] at hall
    obtain ⟨⟨a, rfl⟩, ⟨b, rfl⟩, ⟨c, rfl⟩, ⟨d, rfl⟩⟩ := hall
    exact ⟨⟨a, b, c, d⟩, hjoin.symm⟩
  · rintro ⟨ip, rfl⟩
    have hcount : (dotted ip).count 0x2e = 3 := by
      have hlength := length_splitOnP (p := fun c => c == 0x2e) (dotted ip)
      rw [splitOnP_dotted, ← List.count] at hlength
      simpa [octetTexts, Ipv4Addr.octets] using hlength.symm
    have hwords : words (· == 0x2e) (dotted ip) = octetTexts ip := by
      rw [words, splitOnP_dotted]
      exact List.filter_eq_self.mpr fun w hw => by
        simpa using (isDigit_of_mem_octetTexts hw).1
    rw [hwords]
    refine ⟨hcount, List.all_eq_true.mpr fun w hw => ?_, by simp [octetTexts, Ipv4Addr.octets]⟩
    obtain ⟨o, -, rfl⟩ := List.mem_map.mp hw
    exact (octetLoopStep_iff sh _).mpr ⟨o, rfl⟩

/-! ### The test -/

/-- What the test asks for. -/
theorem isValidIpv4Cidr_eq_true_iff (sh : TestCommand) (s : Str) :
    isValidIpv4Cidr sh s = true ↔
      (∀ c ∈ s, isIp4Char c = true) ∧ 0x2f ∉ afterSlash s ∧
      ((beforeSlash s).count 0x2e = 3 ∧
        (words (· == 0x20) (commandSubstitution ((beforeSlash s ++ [0x0a]).map trDot))).all
          (octetLoopStep sh) = true ∧
        (words (· == 0x20)
          (commandSubstitution ((beforeSlash s ++ [0x0a]).map trDot))).length = 4) ∧
      (afterSlash s = s ∨ isPrefixPattern (afterSlash s) = true) := by
  have hne (hcount : (beforeSlash s).count 0x2e = 3) : s ≠ [] ∧ beforeSlash s ≠ [] := by
    refine ⟨?_, ?_⟩
    · rintro rfl
      exact absurd hcount (by decide)
    · intro h
      rw [h] at hcount
      exact absurd hcount (by decide)
  unfold isValidIpv4Cidr
  simp only [Bool.or_eq_true, List.any_eq_true, Bool.not_eq_true', List.isEmpty_iff,
    List.contains_iff_mem]
  split_ifs with hchar htail hempty hcount hall hlength heq
  case pos =>
    refine iff_of_false id ?_
    rintro ⟨hall, -, ⟨hcount, -⟩, -⟩
    obtain ⟨c, hc, hfalse⟩ | hs := hchar
    · exact Bool.false_ne_true (hfalse.symm.trans (hall c hc))
    · exact (hne hcount).1 hs
  all_goals simp_all

theorem isIp4Char_eq_true_iff (c : UInt8) :
    isIp4Char c = true ↔ (isDigit c = true ∨ c = 0x2e) ∨ c = 0x2f := by
  simp [isIp4Char]

/-- An address passes, and nothing else that has no slash. -/
theorem isValidIpv4Cidr_of_notMem (sh : TestCommand) {s : Str} (hs : 0x2f ∉ s) :
    isValidIpv4Cidr sh s = true ↔ ∃ ip, s = dotted ip := by
  have hbefore : beforeSlash s = s :=
    List.takeWhile_eq_self_iff.mpr fun c hc => by
      simpa using fun h : c = 0x2f => hs (h ▸ hc)
  have hafter : afterSlash s = s := if_neg hs
  rw [isValidIpv4Cidr_eq_true_iff, hbefore, hafter]
  constructor
  · rintro ⟨hchar, -, haddr, -⟩
    have hdot (c : UInt8) (hc : c ∈ s) : isDigit c = true ∨ c = 0x2e :=
      ((isIp4Char_eq_true_iff c).mp (hchar c hc)).resolve_right fun h => hs (h ▸ hc)
    rw [words_octets hdot] at haddr
    exact (exists_dotted_iff sh hdot).mp haddr
  · rintro ⟨ip, rfl⟩
    refine ⟨fun c hc => (isIp4Char_eq_true_iff c).mpr (.inl (of_mem_dotted hc)), hs, ?_, .inl rfl⟩
    rw [words_octets fun c => of_mem_dotted]
    exact (exists_dotted_iff sh fun c => of_mem_dotted).mpr ⟨ip, rfl⟩

theorem beforeSlash_append {a : Str} (ha : 0x2f ∉ a) (t : Str) :
    beforeSlash (a ++ 0x2f :: t) = a := by
  rw [beforeSlash, List.takeWhile_append_of_pos fun c hc => by
    simpa using fun h : c = 0x2f => ha (h ▸ hc)]
  simp

theorem afterSlash_append {a : Str} (ha : 0x2f ∉ a) (t : Str) :
    afterSlash (a ++ 0x2f :: t) = t := by
  rw [afterSlash, if_pos (by simp), List.dropWhile_append_of_pos fun c hc => by
    simpa using fun h : c = 0x2f => ha (h ▸ hc)]
  simp

/-- With a slash, an address with a prefix behind it passes. -/
theorem isValidIpv4Cidr_append (sh : TestCommand) {a : Str} (ha : 0x2f ∉ a) (t : Str) :
    isValidIpv4Cidr sh (a ++ 0x2f :: t) = true ↔
      (∃ ip, a = dotted ip) ∧ ∃ n ≤ 32, t = decimalText n := by
  have hne : t ≠ a ++ 0x2f :: t := fun h => by
    have := congrArg List.length h
    simp only [List.length_append, List.length_cons] at this
    omega
  rw [isValidIpv4Cidr_eq_true_iff, beforeSlash_append ha, afterSlash_append ha,
    isPrefixPattern_iff]
  constructor
  · rintro ⟨hchar, -, haddr, hprefix⟩
    have hdot (c : UInt8) (hc : c ∈ a) : isDigit c = true ∨ c = 0x2e :=
      ((isIp4Char_eq_true_iff c).mp (hchar c (List.mem_append_left _ hc))).resolve_right
        fun h => ha (h ▸ hc)
    rw [words_octets hdot] at haddr
    exact ⟨(exists_dotted_iff sh hdot).mp haddr, hprefix.resolve_left hne⟩
  · rintro ⟨⟨ip, rfl⟩, n, hn, rfl⟩
    have hnum : IsNumber (decimalText n) := isNumber_decimalText (by omega)
    refine ⟨fun c hc => (isIp4Char_eq_true_iff c).mpr ?_, ?_, ?_, .inr ⟨n, hn, rfl⟩⟩
    · obtain hc | hc := List.mem_append.mp hc
      · exact .inl (of_mem_dotted hc)
      · obtain rfl | hc := List.mem_cons.mp hc
        · exact .inr rfl
        · exact .inl (.inl (hnum.2 c hc))
    · exact fun hmem => (isDigit_ne (hnum.2 _ hmem)).2.1 rfl
    · rw [words_octets fun c => of_mem_dotted]
      exact (exists_dotted_iff sh fun c => of_mem_dotted).mpr ⟨ip, rfl⟩

theorem slash_notMem_dotted (ip : Ipv4Addr) : 0x2f ∉ dotted ip := fun h => by
  obtain hdigit | hdot := of_mem_dotted h
  · exact absurd hdigit (by decide)
  · exact absurd hdot (by decide)

/-- Exactly the texts of networks pass the test. -/
theorem isValidIpv4Cidr_iff (sh : TestCommand) (s : Str) :
    isValidIpv4Cidr sh s = true ↔ ∃ net, Ip4Cidr s net := by
  constructor
  · intro h
    by_cases hs : 0x2f ∈ s
    · obtain ⟨a, t, rfl, ha⟩ := List.eq_append_cons_of_mem hs
      obtain ⟨⟨ip, rfl⟩, n, hn, rfl⟩ := (isValidIpv4Cidr_append sh ha t).mp h
      exact ⟨_, .network ip n hn⟩
    · obtain ⟨ip, rfl⟩ := (isValidIpv4Cidr_of_notMem sh hs).mp h
      exact ⟨_, .address ip⟩
  · rintro ⟨net, h⟩
    cases h with
    | address ip =>
        exact (isValidIpv4Cidr_of_notMem sh (slash_notMem_dotted ip)).mpr ⟨ip, rfl⟩
    | network ip n hn =>
        exact (isValidIpv4Cidr_append sh (slash_notMem_dotted ip) _).mpr
          ⟨⟨ip, rfl⟩, n, hn, rfl⟩

/-- A text is one network at most. -/
theorem Ip4Cidr.unique {s : Str} {net net' : IpNet} (h : Ip4Cidr s net) (h' : Ip4Cidr s net') :
    net = net' := by
  have hslash (ip ip' : Ipv4Addr) (t : Str) : dotted ip ≠ dotted ip' ++ 0x2f :: t := fun heq =>
    slash_notMem_dotted ip (heq ▸ by simp)
  generalize hs : s = s' at h'
  cases h with
  | address ip =>
      cases h' with
      | address ip' => rw [dotted_inj hs]
      | network ip' n' hn' => exact absurd hs (hslash ip ip' _)
  | network ip n hn =>
      cases h' with
      | address ip' => exact absurd hs.symm (hslash ip' ip _)
      | network ip' n' hn' =>
          have hip := congrArg beforeSlash hs
          have htail := congrArg afterSlash hs
          rw [beforeSlash_append (slash_notMem_dotted ip),
            beforeSlash_append (slash_notMem_dotted ip')] at hip
          rw [afterSlash_append (slash_notMem_dotted ip),
            afterSlash_append (slash_notMem_dotted ip')] at htail
          rw [dotted_inj hip, decimalText_inj (by omega) (by omega) htail]

/-! ### Lists -/

/-- The bytes of a text of ASCII characters. -/
def ascii (s : String) : Str :=
  s.toList.map fun c => UInt8.ofNat c.toNat

/-- The variable `_out` and the entries ignored with a warning. -/
structure IpListLoop where
  out : Str := []
  ignored : List Str := []
  deriving DecidableEq, Repr

/-- The body of the loop over the entries. -/
def ipListLoopStep (sh : TestCommand) (st : IpListLoop) (e : Str) : IpListLoop :=
  if !isValidIpv4Cidr sh e then { st with ignored := st.ignored ++ [e] }
  -- `case ":$_out:" in *":$_e:"*)`
  else if 0x3a :: (e ++ [0x3a]) <:+: 0x3a :: (st.out ++ [0x3a]) then st
  else { st with out := st.out ++ 0x3a :: e }

/-- `normalize_ip_cidr_list`. -/
def normalizeIpCidrList (sh : TestCommand) (raw : Str) : IpListLoop :=
  if raw.isEmpty then {}
  else
    let raw := commandSubstitution ((raw ++ [0x0a]).map trSeparators)
    let st := (words (· == 0x20) raw).foldl (ipListLoopStep sh) {}
    { st with out := (removeColon st.out ++ [0x0a]).map trColon }

/-- The separators of words in the shell. -/
def isIfs (c : UInt8) : Bool :=
  c ∈ [0x20, 0x09, 0x0a]

/-- `for _p in $1; do printf ...; done`. -/
def printEach (before after : String) (list : Str) : Str :=
  (words isIfs list).flatMap fun p => ascii before ++ p ++ ascii after

/-- `set_elements_nft`. -/
def setElementsNft (list : Str) : Str :=
  printEach "      " ",\n" list

/-- `saddr_bypass_rules_nft`. -/
def saddrBypassRulesNft (list : Str) : Str :=
  printEach "    ip saddr " " return\n" list

/-- The valid entries of a list, each once. -/
def ipEntries (sh : TestCommand) (raw : Str) : List Str :=
  ((portTokens raw).filter (isValidIpv4Cidr sh)).eraseDups

theorem foldl_ipListLoopStep (sh : TestCommand) (tokens : List Str) :
    (tokens.foldl (ipListLoopStep sh) {}).out =
        tokens.foldl (addWord 0x3a (isValidIpv4Cidr sh)) [] ∧
      (tokens.foldl (ipListLoopStep sh) {}).ignored =
        tokens.filter fun e => !isValidIpv4Cidr sh e := by
  induction tokens using List.reverseRecOn with
  | nil => exact ⟨rfl, rfl⟩
  | append_singleton tokens e ih =>
      rw [List.foldl_append, List.foldl_append, List.filter_append, ← ih.1, ← ih.2,
        List.foldl_cons, List.foldl_nil, List.foldl_cons, List.foldl_nil, ipListLoopStep, addWord]
      by_cases he : isValidIpv4Cidr sh e
      · split_ifs <;> simp_all
      · simp [he]

theorem isIp4Char_of_isValid {sh : TestCommand} {e : Str} (h : isValidIpv4Cidr sh e = true) :
    e ≠ [] ∧ ∀ c ∈ e, isIp4Char c = true := by
  refine ⟨?_, ((isValidIpv4Cidr_eq_true_iff sh e).mp h).1⟩
  rintro rfl
  simp [isValidIpv4Cidr] at h

theorem of_isIp4Char {c : UInt8} (hc : isIp4Char c = true) :
    (c == 0x3a) = false ∧ isIfs c = false ∧ trColon c = c := by
  revert c
  decide +kernel

theorem isValid_of_mem_ipEntries {sh : TestCommand} {raw e : Str} (he : e ∈ ipEntries sh raw) :
    isValidIpv4Cidr sh e = true :=
  (List.mem_filter.mp (List.mem_eraseDups.mp he)).2

/-- The output lists the valid entries. -/
theorem normalizeIpCidrList_out (sh : TestCommand) {raw : Str} (hraw : raw ≠ []) :
    (normalizeIpCidrList sh raw).out = portListing (ipEntries sh raw) := by
  have hfold : ((portTokens raw).foldl (ipListLoopStep sh) {}).out =
      prefixed 0x3a (ipEntries sh raw) :=
    (foldl_ipListLoopStep sh _).1.trans
      (foldl_addWord (p := fun c : UInt8 => c == 0x3a) (beq_self_eq_true _) fun w _ hw =>
        ⟨(isIp4Char_of_isValid hw).1, fun c hc =>
          (of_isIp4Char ((isIp4Char_of_isValid hw).2 c hc)).1⟩)
  have hkeep : ∀ e ∈ ipEntries sh raw, ∀ c ∈ e, trColon c = c := fun e he c hc =>
    (of_isIp4Char ((isIp4Char_of_isValid (isValid_of_mem_ipEntries he)).2 c hc)).2.2
  rw [normalizeIpCidrList, if_neg (by simpa using hraw)]
  simp only [words_commandSubstitution, hfold, removeColon_prefixed]
  rw [List.map_append, map_intercalate hkeep]
  rfl

/-- What is not valid is ignored with a warning. -/
theorem normalizeIpCidrList_ignored (sh : TestCommand) (raw : Str) :
    (normalizeIpCidrList sh raw).ignored =
      (portTokens raw).filter fun e => !isValidIpv4Cidr sh e := by
  unfold normalizeIpCidrList
  split_ifs with h
  · rw [List.isEmpty_iff.mp h, portTokens, words_nil, List.filter_nil]
  · simp only [words_commandSubstitution]
    exact (foldl_ipListLoopStep sh _).2

/-- A loop over the list in the shell sees the entries. -/
theorem words_normalizeIpCidrList (sh : TestCommand) (raw : Str) :
    words isIfs (commandSubstitution (normalizeIpCidrList sh raw).out) = ipEntries sh raw := by
  by_cases hraw : raw = []
  · subst hraw
    rfl
  · have hwords : AreWords isIfs (ipEntries sh raw) := fun e he => by
      obtain ⟨hne, hchar⟩ := isIp4Char_of_isValid (isValid_of_mem_ipEntries he)
      exact ⟨hne, fun c hc => (of_isIp4Char (hchar c hc)).2.1⟩
    have hnewline (c : UInt8) (hc : (c == 0x0a) = true) : isIfs c = true := by
      rw [eq_of_beq hc]
      decide
    rw [commandSubstitution, words_rdropWhile hnewline, normalizeIpCidrList_out sh hraw,
      portListing, words_append_cons (by decide), words_nil, List.append_nil,
      words_intercalate (by decide) hwords]

/-- The networks of a list of texts. -/
theorem exists_nets {l : List Str} (hall : ∀ e ∈ l, ∃ net, Ip4Cidr e net) :
    ∃ nets, List.Forall₂ Ip4Cidr l nets := by
  induction l with
  | nil => exact ⟨[], .nil⟩
  | cons e l ih =>
      obtain ⟨net, hnet⟩ := hall e List.mem_cons_self
      obtain ⟨nets, hnets⟩ := ih fun e he => hall e (List.mem_cons_of_mem _ he)
      exact ⟨net :: nets, .cons hnet hnets⟩

/-- The networks of a list contain an address if one of the texts stands for a network that does. -/
theorem anyContains_iff {l : List Str} {nets : List IpNet} (h : List.Forall₂ Ip4Cidr l nets)
    (ip : IpAddr) :
    anyContains nets ip = true ↔ ∃ e ∈ l, ∃ net, Ip4Cidr e net ∧ net.contains ip = true := by
  induction h with
  | nil => simp [anyContains]
  | @cons e net l nets he _ ih =>
      have hcons : anyContains (net :: nets) ip = (net.contains ip || anyContains nets ip) := rfl
      have hhead : (∃ net', Ip4Cidr e net' ∧ net'.contains ip = true) ↔
          net.contains ip = true := by
        constructor
        · rintro ⟨net', he', hip⟩
          rwa [he.unique he']
        · exact fun hip => ⟨net, he, hip⟩
      rw [hcons, Bool.or_eq_true, ih, ← hhead]
      simp only [List.mem_cons, or_and_right, exists_or, exists_eq_left]

/-- The rules and the set elements written for a list are those of its entries that stand for a
network, each once and in order, and the rest is ignored with a warning. A packet is covered by the
networks if an entry covers its source. -/
theorem saddrBypassRules_exact (sh : TestCommand) (raw : Str) :
    let list := commandSubstitution (normalizeIpCidrList sh raw).out
    let entries := ipEntries sh raw
    (∀ e, e ∈ entries ↔ e ∈ portTokens raw ∧ ∃ net, Ip4Cidr e net) ∧
    entries.Nodup ∧ entries.Sublist (portTokens raw) ∧
    (∀ e, e ∈ (normalizeIpCidrList sh raw).ignored ↔
      e ∈ portTokens raw ∧ ¬∃ net, Ip4Cidr e net) ∧
    saddrBypassRulesNft list =
      entries.flatMap (fun e => ascii "    ip saddr " ++ e ++ ascii " return\n") ∧
    setElementsNft list = entries.flatMap (fun e => ascii "      " ++ e ++ ascii ",\n") ∧
    ∃ nets, List.Forall₂ Ip4Cidr entries nets ∧ ∀ p : Packet,
      p.ipSaddrIn nets = true ↔ ∃ saddr daddr, p.flow.header = .v4 saddr daddr ∧
        ∃ e ∈ portTokens raw, ∃ net, Ip4Cidr e net ∧ net.contains (.v4 saddr) = true := by
  intro list entries
  have hwords : words isIfs list = entries := words_normalizeIpCidrList sh raw
  have hmem (e : Str) : e ∈ entries ↔ e ∈ portTokens raw ∧ ∃ net, Ip4Cidr e net := by
    rw [← isValidIpv4Cidr_iff sh, ← List.mem_filter]
    exact List.mem_eraseDups
  obtain ⟨nets, hnets⟩ := exists_nets fun e he => ((hmem e).mp he).2
  refine ⟨hmem, nodup_eraseDups _, ?_, fun e => ?_, ?_, ?_, nets, hnets, fun p => ?_⟩
  · exact (eraseDups_sublist _).trans List.filter_sublist
  · rw [normalizeIpCidrList_ignored, List.mem_filter, ← isValidIpv4Cidr_iff sh]
    simp
  · rw [saddrBypassRulesNft, printEach, hwords]
  · rw [setElementsNft, printEach, hwords]
  · unfold Packet.ipSaddrIn
    cases p.flow.header with
    | v4 saddr daddr =>
        have hentry : (∃ e ∈ entries, ∃ net, Ip4Cidr e net ∧ net.contains (.v4 saddr) = true) ↔
            ∃ e ∈ portTokens raw, ∃ net, Ip4Cidr e net ∧ net.contains (.v4 saddr) = true :=
          exists_congr fun e => ⟨fun ⟨he, hnet⟩ => ⟨((hmem e).mp he).1, hnet⟩,
            fun ⟨he, net, hnet, hip⟩ => ⟨(hmem e).mpr ⟨he, net, hnet⟩, net, hnet, hip⟩⟩
        rw [anyContains_iff hnets, hentry]
        simp
    | v6 saddr daddr => simp

end XtpRs.Scripts
