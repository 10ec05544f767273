import XtpRs.Lib.Digits

/-!
# Decimal texts

Numbers as they are printed: natural numbers without zeros in front, and fractions with a given
number of places behind the point, rounded to the nearest such fraction and half way between two to
the even one.

## Main definitions

* `natText n`: the number in decimal.
* `value ds`: the number that digits stand for.
* `fixed k q`: the fraction with `k` places, and `fixedValue k q`, what it stands for.

## Main results

* `value_natText`, `value_places`: the digits stand for the number.
* `abs_fixedValue_sub_le`: the text is off by at most half a unit of the last place.
* `abs_fixedValue_sub_le_fixedValue`: no other text is nearer.
-/

namespace XtpRs.Lib.Decimal

/-- `[0-9]` -/
def isDigit (c : UInt8) : Bool :=
  0x30 ≤ c && c ≤ 0x39

/-- The character of a digit. -/
def digit (d : ℕ) : UInt8 :=
  .ofNat (0x30 + d)

/-- The number that digits stand for. -/
def value (ds : List UInt8) : ℕ :=
  bigEndian 10 (ds.map fun c => c.toNat - 0x30)

/-- A number without zeros in front. -/
def natText (n : ℕ) : List UInt8 :=
  if n = 0 then [digit 0] else (Nat.digits 10 n).reverse.map digit

/-- The last `k` digits of a number. -/
def places : ℕ → ℕ → List UInt8
  | 0, _ => []
  | k + 1, n => places k (n / 10) ++ [digit (n % 10)]

/-- The nearest natural number, and the even one half way between two. -/
def roundEven (q : ℚ) : ℕ :=
  if q - ⌊q⌋₊ < 1 / 2 then ⌊q⌋₊
  else if 1 / 2 < q - ⌊q⌋₊ then ⌊q⌋₊ + 1
  else ⌊q⌋₊ + ⌊q⌋₊ % 2

/-- A fraction with `k` places behind the point. -/
def fixed (k : ℕ) (q : ℚ) : List UInt8 :=
  natText (roundEven (q * 10 ^ k) / 10 ^ k) ++ 0x2e :: places k (roundEven (q * 10 ^ k))

/-- What its text stands for. -/
def fixedValue (k : ℕ) (q : ℚ) : ℚ :=
  roundEven (q * 10 ^ k) / 10 ^ k

/-! ### Digits -/

theorem toNat_digit {d : ℕ} (hd : d < 10) : (digit d).toNat = 0x30 + d := by
  rw [digit, UInt8.toNat_ofNat']
  omega

theorem isDigit_digit {d : ℕ} (hd : d < 10) : isDigit (digit d) = true := by
  simp only [isDigit, Bool.and_eq_true, decide_eq_true_eq, UInt8.le_iff_toNat_le, toNat_digit hd,
    UInt8.toNat_ofNat]
  omega

theorem value_map_digit {l : List ℕ} (hl : ∀ d ∈ l, d < 10) :
    value (l.map digit) = bigEndian 10 l := by
  have hback : ∀ d ∈ l, ((fun c : UInt8 => c.toNat - 0x30) ∘ digit) d = d := fun d hd => by
    rw [Function.comp_apply, toNat_digit (hl d hd), Nat.add_sub_cancel_left]
  rw [value, List.map_map, List.map_congr_left hback, List.map_id']

theorem value_append (ds es : List UInt8) :
    value (ds ++ es) = value ds * 10 ^ es.length + value es := by
  rw [value, List.map_append, bigEndian_append, List.length_map, value, value]

theorem value_singleton {d : ℕ} (hd : d < 10) : value [digit d] = d := by
  have h := value_map_digit (l := [d]) (by simpa using hd)
  simpa [bigEndian] using h

/-! ### Natural numbers -/

/-- Digits that do not begin with a zero, unless it is the only one. -/
structure IsInt (ds : List UInt8) : Prop where
  ne_nil : ds ≠ []
  isDigit : ∀ c ∈ ds, isDigit c = true
  head : ds.head? = some 0x30 → ds.length = 1

theorem bigEndian_reverse (b : ℕ) (l : List ℕ) : bigEndian b l.reverse = Nat.ofDigits b l := by
  rw [bigEndian, List.foldl_reverse, Nat.ofDigits_eq_foldr]
  congr 1
  funext d v
  simp [mul_comm, add_comm]

theorem value_natText (n : ℕ) : value (natText n) = n := by
  rw [natText]
  split_ifs with hn
  · rw [value_singleton (by decide), hn]
  · have hl : ∀ d ∈ (Nat.digits 10 n).reverse, d < 10 := fun d hd =>
      Nat.digits_lt_base (by decide) (List.mem_reverse.mp hd)
    rw [value_map_digit hl, bigEndian_reverse, Nat.ofDigits_digits]

theorem isInt_natText (n : ℕ) : IsInt (natText n) := by
  rw [natText]
  split_ifs with hn
  · exact ⟨by simp, by simp [isDigit_digit], fun _ => rfl⟩
  · have hne : Nat.digits 10 n ≠ [] := Nat.digits_ne_nil_iff_ne_zero.mpr hn
    refine ⟨by simpa using hne, fun c hc => ?_, fun hhead => ?_⟩
    · obtain ⟨d, hd, rfl⟩ := List.mem_map.mp hc
      exact isDigit_digit (Nat.digits_lt_base (by decide) (List.mem_reverse.mp hd))
    · -- the greatest place is not zero
      have hlast := Nat.getLast_digit_ne_zero 10 hn
      have hlt := Nat.digits_lt_base (by decide : 1 < 10) (List.getLast_mem hne)
      rw [List.head?_map, List.head?_reverse, List.getLast?_eq_some_getLast hne,
        Option.map_some, Option.some_inj] at hhead
      have hzero : 0x30 + (Nat.digits 10 n).getLast hne = 0x30 :=
        (toNat_digit hlt).symm.trans (congrArg UInt8.toNat hhead)
      omega

/-! ### Places behind the point -/

variable (k n : ℕ)

theorem length_places : (places k n).length = k := by
  induction k generalizing n with
  | zero => rfl
  | succ k ih => rw [places, List.length_append, ih, List.length_singleton]

theorem isDigit_places : ∀ c ∈ places k n, isDigit c = true := by
  induction k generalizing n with
  | zero => simp [places]
  | succ k ih =>
      intro c hc
      obtain hc | hc := List.mem_append.mp hc
      · exact ih _ c hc
      · rw [List.mem_singleton.mp hc]
        exact isDigit_digit (Nat.mod_lt _ (by decide))

theorem value_places : value (places k n) = n % 10 ^ k := by
  induction k generalizing n with
  | zero => simp [places, value, bigEndian, Nat.mod_one]
  | succ k ih =>
      rw [places, value_append, ih, value_singleton (Nat.mod_lt _ (by decide)),
        List.length_singleton, pow_one, pow_succ', Nat.mod_mul]
      ring

/-! ### Rounding -/

variable {q : ℚ}

theorem abs_roundEven_sub_le (hq : 0 ≤ q) : |(roundEven q : ℚ) - q| ≤ 1 / 2 := by
  have hle := Nat.floor_le hq
  have hlt := Nat.lt_floor_add_one q
  have hmod : ((⌊q⌋₊ % 2 : ℕ) : ℚ) ≤ 1 := by
    exact_mod_cast Nat.le_of_lt_succ (Nat.mod_lt _ (by decide))
  have hmod0 : (0 : ℚ) ≤ ((⌊q⌋₊ % 2 : ℕ) : ℚ) := Nat.cast_nonneg _
  rw [abs_le, roundEven]
  split_ifs
  · constructor <;> linarith
  · push_cast
    constructor <;> linarith
  · rw [Nat.cast_add]
    constructor <;> linarith

theorem fixedValue_nonneg : 0 ≤ fixedValue k q := by
  unfold fixedValue
  positivity

/-- The printed number is off by at most half a unit of the last place. -/
theorem abs_fixedValue_sub_le (hq : 0 ≤ q) : |fixedValue k q - q| ≤ 1 / (2 * 10 ^ k) := by
  have hpos : (0 : ℚ) < 10 ^ k := by positivity
  have hround := abs_roundEven_sub_le (mul_nonneg hq hpos.le)
  have hdiv : fixedValue k q - q = (roundEven (q * 10 ^ k) - q * 10 ^ k) / 10 ^ k := by
    rw [fixedValue, sub_div, mul_div_cancel_right₀ _ hpos.ne']
  rw [hdiv, abs_div, abs_of_pos hpos, div_le_div_iff₀ hpos (by positivity)]
  calc |(roundEven (q * 10 ^ k) : ℚ) - q * 10 ^ k| * (2 * 10 ^ k)
      ≤ 1 / 2 * (2 * 10 ^ k) := mul_le_mul_of_nonneg_right hround (by positivity)
    _ = 1 * 10 ^ k := by ring

/-- No natural number is nearer than the one that is rounded to. -/
theorem abs_roundEven_sub_le_natCast (hq : 0 ≤ q) (m : ℕ) :
    |(roundEven q : ℚ) - q| ≤ |(m : ℚ) - q| := by
  have hhalf := abs_roundEven_sub_le hq
  by_cases heq : m = roundEven q
  · rw [heq]
  · -- another number is a whole unit away from it
    have hne : (m : ℤ) - roundEven q ≠ 0 := sub_ne_zero.mpr (by exact_mod_cast heq)
    have hunit : (1 : ℚ) ≤ |(m : ℚ) - roundEven q| := by exact_mod_cast Int.one_le_abs hne
    have htriangle := abs_sub_le (m : ℚ) q (roundEven q)
    rw [abs_sub_comm q] at htriangle
    linarith

/-- No fraction with `k` places is nearer than the printed one. -/
theorem abs_fixedValue_sub_le_fixedValue (hq : 0 ≤ q) (r : ℚ) :
    |fixedValue k q - q| ≤ |fixedValue k r - q| := by
  have hpos : (0 : ℚ) < 10 ^ k := by positivity
  have hscale (m : ℕ) : (m : ℚ) / 10 ^ k - q = (m - q * 10 ^ k) / 10 ^ k := by
    rw [sub_div, mul_div_cancel_right₀ _ hpos.ne']
  rw [fixedValue, fixedValue, hscale, hscale, abs_div, abs_div]
  exact div_le_div_of_nonneg_right
    (abs_roundEven_sub_le_natCast (mul_nonneg hq hpos.le) _) (abs_nonneg _)

/-- A number below half a unit of the last place is printed as zero. -/
theorem fixedValue_eq_zero (hlt : q * 10 ^ k < 1 / 2) : fixedValue k q = 0 := by
  have hfloor : ⌊q * 10 ^ k⌋₊ = 0 := Nat.floor_eq_zero.mpr (by linarith)
  have hround : roundEven (q * 10 ^ k) = 0 := by
    rw [roundEven, hfloor, Nat.cast_zero, sub_zero, if_pos hlt]
  rw [fixedValue, hround, Nat.cast_zero, zero_div]

/-- Other numbers are printed as at least one unit of the last place. -/
theorem fixedValue_eq_zero_or_le : fixedValue k q = 0 ∨ 1 / 10 ^ k ≤ fixedValue k q := by
  rcases Nat.eq_zero_or_pos (roundEven (q * 10 ^ k)) with hzero | hpos
  · exact .inl (by rw [fixedValue, hzero, Nat.cast_zero, zero_div])
  · exact .inr (div_le_div_of_nonneg_right (by exact_mod_cast hpos) (by positivity))

end XtpRs.Lib.Decimal
