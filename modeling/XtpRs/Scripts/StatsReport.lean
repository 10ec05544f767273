import XtpRs.Lib.Json
import XtpRs.Lib.Rounding
import XtpRs.Scripts.Ip4Ranges

/-!
# Probe reports

`contrib/usr/libexec/xtp-rs/stats_reporter.sh` asks the REST API of a ShadowQUIC process for its
outbounds, takes a sample of each direction of each connection, and sends every fresh sample to the
proxy as a JSON text. Numbers of the answer are kept as texts; they are checked and then printed
again with a fixed number of places.

The JSON backend is a function from paths to the texts it prints. An outbound whose tag has a
control character does not count as identified, so the whole round is given up.

`awk` and the `printf` of the shell calculate with floating-point numbers. How they round is a
parameter (`Formats`): in double precision, but for shells that have a longer format. Then a text
with a sign can pass as a round-trip time if it rounds to zero, counters above `2 ^ 53` are rounded,
and the loss rate is rounded on its way through the text of `awk`. A round-trip time too near to
zero for `printf` makes it fail, and the report is not sent. Numbers of up to 18 digits are in the
range of the integers of the shell.

## Main definitions

* `restCollectSamples`: the samples of an answer.
* `reportText`, `buildReportJson`: the text of a report.
* `pollReports`: the texts that are sent for a process.

## Main results

* `restCollectSamples_eq`: an answer has the samples of all its outbounds, or none.
* `valid_of_mem_outboundSamples`: the samples pass all checks.
* `standsFor_jsonEscape`: an escaped text stands for the text.
* `pollReports_eq`: the reports are those of the fresh samples, in their order.
-/

namespace XtpRs.Scripts

open Lib Lib.Ere RegularExpression
open Lib.Decimal (natText fixed)
open Lib.Json (StandsFor NumParts IsDigits numValue expFactor)

/-! ### Checks -/

/-- `is_uint` -/
def isUint (v : Str) : Bool :=
  !v.isEmpty && v.all isDigit && (v == [0x30] || v.head? != some 0x30)

/-- `is_uint_range` -/
def isUintRange (v max : Str) : Bool :=
  isUint v && decide (v.length ≤ max.length) && decide (decimalValue v ≤ decimalValue max)

/-- `COUNTER_MAX` -/
def counterMax : Str :=
  ascii "999999999999999999"

/-- `-?(0|[1-9][0-9]*)(\.[0-9]+)?([eE][+-]?[0-9]+)?` -/
def rttRe : RegularExpression UInt8 :=
  opt (text [0x2d]) *
    (text [0x30] + oneOf (digitRange 1 9) * (oneOf (digitRange 0 9)).star) *
    opt (text [0x2e] * atLeastOnce (oneOf (digitRange 0 9))) *
    opt (oneOf [0x65, 0x45] * opt (oneOf [0x2b, 0x2d]) * atLeastOnce (oneOf (digitRange 0 9)))

/-- The floating-point formats of `awk` and of the `printf` of the shell. `printf` fails at a text
that is too near to zero for its format, or too large. -/
structure Formats where
  awk : Rounding
  printf : Rounding
  converts : Str → Bool
  converts_of_numValue : ∀ s q, numValue s = some q → q = 0 ∨ 1 / 2 ^ 200 ≤ |q| → |q| ≤ 2 ^ 64 →
    converts s = true

/-- The number that a text stands for. -/
def textNumber (s : Str) : ℚ :=
  (numValue s).getD 0

/-- A text as a number of `awk`. -/
def Formats.awkNumber (fmt : Formats) (s : Str) : ℚ :=
  fmt.awk.round (textNumber s)

/-- A text as a number of `printf`. -/
def Formats.printfNumber (fmt : Formats) (s : Str) : ℚ :=
  fmt.printf.round (textNumber s)

variable (fmt : Formats)

/-- `is_valid_rtt` -/
def isValidRtt (s : Str) : Bool :=
  !s.isEmpty && (s.all fun c => isDigit c || c ∈ ascii ".eE+-") && rttRe.rmatch s &&
    decide (0 ≤ fmt.awkNumber s ∧ fmt.awkNumber s < 10000000)

/-- `[[:cntrl:]]` -/
def isCntrl (c : UInt8) : Bool :=
  c < 0x20 || c == 0x7f

/-! ### Samples -/

/-- A line of `rest_collect_samples`. -/
structure Sample where
  tag : Str
  link : Str
  rtt : Str
  lost : Str
  sent : Str
  mtu : Str
  age : Str
  deriving DecidableEq, Repr

/-- What the loop over `uplink` and `downlink` prints for a link of an outbound. -/
def linkSample (jsonGet : Str → Option Str) (base tag age link : Str) : Option Sample := do
  let p := base ++ ascii ".quality.sq_conn_stats." ++ link
  let rtt ← jsonGet (p ++ ascii ".rtt")
  let lost ← jsonGet (p ++ ascii ".lost_packets")
  let sent ← jsonGet (p ++ ascii ".sent_packets")
  let mtu ← jsonGet (p ++ ascii ".current_mtu")
  if isValidRtt fmt rtt && (isUintRange lost counterMax && isUintRange sent counterMax) &&
      isUintRange mtu (ascii "65535") then
    return ⟨tag, link, rtt, lost, sent, mtu, age⟩
  else none

/-- What has been printed, and the variable `identified`. -/
structure Collected where
  samples : List Sample := []
  identified : ℕ := 0

/-- The variable `base`. -/
def outboundBase (idx : ℕ) : Str :=
  ascii "outbounds[" ++ natText idx ++ ascii "]"

/-- The loop over the outbounds. -/
def collectStep (jsonGet : Str → Option Str) (st : Collected) (idx : ℕ) : Collected :=
  let base := outboundBase idx
  match jsonGet (base ++ ascii ".tag") with
  | none => st
  | some tag =>
    if tag = [] then st
    else if tag.any isCntrl then st
    else
      let identified := st.identified + 1
      match jsonGet (base ++ ascii ".quality.sq_conn_stats.sample_age_ms") with
      | none => { st with identified }
      | some age =>
        if isUintRange age counterMax then
          let links := [ascii "uplink", ascii "downlink"]
          ⟨st.samples ++ links.filterMap (linkSample fmt jsonGet base tag age), identified⟩
        else { st with identified }

/-- `rest_collect_samples`, with the outputs of `json_array_len`, of `json_outbound_tags | wc -l`
and of `json_get`. -/
def restCollectSamples (len : Str) (nTags : ℕ) (jsonGet : Str → Option Str) :
    Option (List Sample) :=
  if len.isEmpty || !len.all isDigit then none
  else if decimalValue len = 0 then none
  else if nTags ≠ decimalValue len then none
  else
    let st := (List.range (decimalValue len)).foldl (collectStep fmt jsonGet) {}
    if st.identified ≠ decimalValue len then none else some st.samples

/-- The line of a sample, with tabs between the fields. -/
def sampleLine (s : Sample) : Str :=
  [(0x09 : UInt8)].intercalate [s.tag, s.link, s.rtt, s.lost, s.sent, s.mtu, s.age]

/-- `printf '%s\n' "$samples"`, where the variable has lost the newlines at the end. -/
def samplesText (samples : List Sample) : Str :=
  (unlines (samples.map sampleLine)).rdropWhile (· == 0x0a) ++ [0x0a]

/-- `IFS=<tab> read -r tag link rtt lost sent mtu age`: a field that is missing is empty, and the
last one takes what is left. -/
def readSample (line : Str) : Sample :=
  let fields := words (· == 0x09) line
  { tag := fields.getD 0 []
    link := fields.getD 1 []
    rtt := fields.getD 2 []
    lost := fields.getD 3 []
    sent := fields.getD 4 []
    mtu := fields.getD 5 []
    age := [(0x09 : UInt8)].intercalate (fields.drop 6) }

/-! ### Reports -/

/-- The program of `json_escape` on one character. -/
def escapeChar (c : UInt8) : Str :=
  if c = 0x5c then [0x5c, 0x5c]
  else if c = 0x22 then [0x5c, 0x22]
  else if 1 ≤ c ∧ c < 0x20 then
    -- `sprintf("\\u%04x", i)`
    ascii "\\u00" ++ [if c < 0x10 then 0x30 else 0x31,
      if c % 0x10 < 10 then 0x30 + c % 0x10 else 0x61 + (c % 0x10 - 10)]
  else [c]

/-- `json_escape` -/
def jsonEscape (s : Str) : Str :=
  (ascii "\\n").intercalate ((fileLines s).map fun record => record.flatMap escapeChar)

/-- `lost / (sent + 1)` in `awk`. -/
def Formats.lossRate (fmt : Formats) (lost sent : Str) : ℚ :=
  fmt.awk.round (fmt.awk.round (decimalValue lost) /
    fmt.awk.round (fmt.awk.round (decimalValue sent) + 1))

/-- `loss_rate_from` -/
def lossRateFrom (lost sent : Str) : Str :=
  fixed 4 (fmt.lossRate lost sent)

/-- `printf '%.*f'`: a number that is not below zero may have the sign of a negative zero. -/
def printfFixed (places : ℕ) (s : Str) : Str :=
  (if s.head? = some 0x2d then [0x2d] else []) ++ fixed places |fmt.printfNumber s|

/-- `printf '%d'` -/
def printfInt (s : Str) : Str :=
  natText (decimalValue s)

/-- The format of `build_report_json` with its arguments. -/
def reportText (upstreamId peer rtt lossRate mtu link : Str) : Str :=
  ascii "\x7b\"upstream_id\":\"" ++ jsonEscape upstreamId ++ ascii "\",\"peer\":\"" ++ peer ++
    ascii "\",\"rtt_ms\":" ++ printfFixed fmt 3 rtt ++ ascii ",\"loss_rate\":" ++
    printfFixed fmt 4 lossRate ++ ascii ",\"mtu\":" ++ printfInt mtu ++ ascii ",\"link\":\"" ++
    link ++ ascii "\"\x7d"

/-- `build_report_json`, unless `printf` fails. -/
def buildReportJson (upstreamId peer rtt lossRate mtu link : Str) : Option Str :=
  if fmt.converts rtt && fmt.converts lossRate then
    some (reportText fmt upstreamId peer rtt lossRate mtu link)
  else none

/-- `is_age_stale` -/
def isAgeStale (maxAge : ℕ) (age : Str) : Bool :=
  fmt.awk.round maxAge < fmt.awk.round (decimalValue age)

/-- The loop of `poll_outbounds` over the lines of the samples. -/
def reportOf (maxAge : ℕ) (cfgName pid : Str) (s : Sample) : Option Str :=
  if s.tag = [] then none
  else if isAgeStale fmt maxAge s.age then none
  else
    let lossRate := lossRateFrom fmt s.lost s.sent
    if lossRate.isEmpty || !(lossRate.all fun c => isDigit c || c == 0x2e) then none
    else
      let upstreamId := cfgName ++ ascii "_" ++ s.tag
      buildReportJson fmt upstreamId pid s.rtt lossRate s.mtu s.link

/-- The reports that `poll_outbounds` sends for one process. -/
def pollReports (maxAge : ℕ) (cfgName pid : Str) (len : Str) (nTags : ℕ)
    (jsonGet : Str → Option Str) : List Str :=
  match restCollectSamples fmt len nTags jsonGet with
  | none => []
  | some samples =>
    (fileLines (samplesText samples)).filterMap fun line =>
      reportOf fmt maxAge cfgName pid (readSample line)

/-! ### The samples of an answer -/

variable {fmt}

/-- The tag of an outbound, if it is identified. -/
def usableTag (jsonGet : Str → Option Str) (idx : ℕ) : Option Str :=
  (jsonGet (outboundBase idx ++ ascii ".tag")).filter fun tag =>
    tag ≠ [] ∧ ¬tag.any isCntrl

/-- The samples of an outbound. -/
def outboundSamples (fmt : Formats) (jsonGet : Str → Option Str) (idx : ℕ) : List Sample :=
  let base := outboundBase idx
  match usableTag jsonGet idx with
  | none => []
  | some tag =>
    match jsonGet (base ++ ascii ".quality.sq_conn_stats.sample_age_ms") with
    | none => []
    | some age =>
      if isUintRange age counterMax then
        [ascii "uplink", ascii "downlink"].filterMap (linkSample fmt jsonGet base tag age)
      else []

variable {jsonGet : Str → Option Str} {len : Str} {nTags : ℕ}

theorem collectStep_eq (st : Collected) (idx : ℕ) :
    collectStep fmt jsonGet st idx = ⟨st.samples ++ outboundSamples fmt jsonGet idx,
      st.identified + if (usableTag jsonGet idx).isSome then 1 else 0⟩ := by
  obtain htag | ⟨tag, htag⟩ :=
    Option.eq_none_or_eq_some (jsonGet (outboundBase idx ++ ascii ".tag"))
  · have hunusable : usableTag jsonGet idx = none := by rw [usableTag, htag, Option.filter_none]
    simp [collectStep, outboundSamples, htag, hunusable]
  by_cases hnil : tag = []
  · have hunusable : usableTag jsonGet idx = none := by simp [usableTag, htag, Option.filter, hnil]
    simp [collectStep, outboundSamples, htag, hnil, hunusable]
  by_cases hcntrl : tag.any isCntrl
  · have hunusable : usableTag jsonGet idx = none := by
      simp [usableTag, htag, Option.filter, -List.any_eq_true, hcntrl]
    simp [collectStep, outboundSamples, htag, hnil, -List.any_eq_true, hcntrl, hunusable]
  have husable : usableTag jsonGet idx = some tag := by
    simp [usableTag, htag, Option.filter, hnil, hcntrl]
  simp only [collectStep, outboundSamples, htag, husable, if_neg hnil, if_neg hcntrl,
    Option.isSome_some, if_true]
  split
  · rw [List.append_nil]
  · split_ifs
    · rfl
    · rw [List.append_nil]

theorem foldl_collectStep (l : List ℕ) (st : Collected) :
    l.foldl (collectStep fmt jsonGet) st = ⟨st.samples ++ l.flatMap (outboundSamples fmt jsonGet),
      st.identified + l.countP fun idx => (usableTag jsonGet idx).isSome⟩ := by
  induction l generalizing st with
  | nil => simp
  | cons idx l ih =>
      rw [List.foldl_cons, ih, collectStep_eq, List.flatMap_cons, List.countP_cons,
        List.append_assoc, Nat.add_assoc, Nat.add_comm (List.countP _ _)]

/-- The length is a number, there are as many tags, and every outbound is identified. -/
def AllIdentified (len : Str) (nTags : ℕ) (jsonGet : Str → Option Str) : Prop :=
  (len ≠ [] ∧ len.all isDigit) ∧ decimalValue len ≠ 0 ∧ nTags = decimalValue len ∧
    ∀ idx < decimalValue len, (usableTag jsonGet idx).isSome

instance : Decidable (AllIdentified len nTags jsonGet) :=
  inferInstanceAs (Decidable (_ ∧ _ ∧ _ ∧ _))

/-- The samples are those of all outbounds, or none. -/
theorem restCollectSamples_eq :
    restCollectSamples fmt len nTags jsonGet =
      if AllIdentified len nTags jsonGet then
        some ((List.range (decimalValue len)).flatMap (outboundSamples fmt jsonGet))
      else none := by
  by_cases hlen : len ≠ [] ∧ len.all isDigit
  swap
  · have hbad : (len.isEmpty || !len.all isDigit) = true := by
      by_cases hnil : len = []
      · simp [hnil]
      · simpa [hnil] using hlen
    rw [restCollectSamples, if_pos hbad, if_neg fun h => hlen h.1]
  have hgood : ¬(len.isEmpty || !len.all isDigit) = true := by
    simpa using hlen
  rw [restCollectSamples, if_neg hgood]
  by_cases hzero : decimalValue len = 0
  · rw [if_pos hzero, if_neg fun h => h.2.1 hzero]
  by_cases htags : nTags = decimalValue len
  swap
  · rw [if_neg hzero, if_pos htags, if_neg fun h => htags h.2.2.1]
  rw [if_neg hzero, if_neg (not_not_intro htags)]
  simp only [foldl_collectStep, List.nil_append, Nat.zero_add]
  have hcount : (List.range (decimalValue len)).countP (fun idx => (usableTag jsonGet idx).isSome) =
      decimalValue len ↔ ∀ idx < decimalValue len, (usableTag jsonGet idx).isSome := by
    conv_lhs => rhs; rw [← List.length_range (n := decimalValue len)]
    rw [List.countP_eq_length]
    simp only [List.mem_range]
  by_cases hall : ∀ idx < decimalValue len, (usableTag jsonGet idx).isSome
  · rw [if_neg (not_not_intro (hcount.mpr hall)), if_pos ⟨hlen, hzero, htags, hall⟩]
  · rw [if_pos fun h => hall (hcount.mp h), if_neg fun h => hall h.2.2.2]

/-- What `rest_collect_samples` promises of its lines. -/
structure Sample.Valid (fmt : Formats) (s : Sample) : Prop where
  tag_ne_nil : s.tag ≠ []
  tag : ∀ c ∈ s.tag, isCntrl c = false
  link : s.link ∈ [ascii "uplink", ascii "downlink"]
  rtt : isValidRtt fmt s.rtt = true
  lost : isUintRange s.lost counterMax = true
  sent : isUintRange s.sent counterMax = true
  mtu : isUintRange s.mtu (ascii "65535") = true
  age : isUintRange s.age counterMax = true

/-- **The samples pass all checks.** -/
theorem valid_of_mem_outboundSamples {idx : ℕ} {s : Sample}
    (hs : s ∈ outboundSamples fmt jsonGet idx) : s.Valid fmt := by
  simp only [outboundSamples] at hs
  split at hs
  · cases hs
  next tag htag =>
  split at hs
  · cases hs
  next age _ =>
  split_ifs at hs with hage
  · obtain ⟨htag_ne, htag⟩ : tag ≠ [] ∧ ¬tag.any isCntrl = true := by
      simpa using (Option.filter_eq_some_iff.mp htag).2
    obtain ⟨link, hlink, hsample⟩ := List.mem_filterMap.mp hs
    simp only [linkSample, Option.bind_eq_bind, Option.bind_eq_some_iff] at hsample
    obtain ⟨rtt, -, lost, -, sent, -, mtu, -, hsample⟩ := hsample
    split_ifs at hsample with hchecks
    obtain rfl := Option.some.inj hsample
    simp only [Bool.and_eq_true] at hchecks
    obtain ⟨⟨hrtt, hlost, hsent⟩, hmtu⟩ := hchecks
    exact ⟨htag_ne, by simpa using htag, hlink, hrtt, hlost, hsent, hmtu, hage⟩
  · cases hs

/-! ### Numbers -/

theorem isDigit_eq (c : UInt8) : isDigit c = Decimal.isDigit c :=
  rfl

theorem isDigit_of_mem_digitRange {c : UInt8} {lo : ℕ} (hc : c ∈ digitRange lo 9) :
    Decimal.isDigit c = true := by
  obtain ⟨d, -, hd, rfl⟩ := mem_digitRange.mp hc
  exact isDigit_digitChar (by omega)

theorem isDigits_of_mem {s : Str} (h : s ∈ (atLeastOnce (oneOf (digitRange 0 9))).matches') :
    IsDigits s := by
  obtain ⟨hne, hs⟩ := mem_atLeastOnce_oneOf.mp h
  exact ⟨hne, fun c hc => isDigit_of_mem_digitRange (hs c hc)⟩

/-- What the expression accepts is a number of JSON. -/
theorem numParts_of_mem_rttRe {s : Str} (h : s ∈ rttRe.matches') :
    ∃ sign int frac exp, s = sign ++ int ++ frac ++ exp ∧ NumParts sign int frac exp := by
  obtain ⟨front, hfront, exp, hexp, rfl⟩ := mem_mul.mp h
  obtain ⟨whole, hwhole, frac, hfrac, rfl⟩ := mem_mul.mp hfront
  obtain ⟨sign, hsign, int, hint, rfl⟩ := mem_mul.mp hwhole
  refine ⟨sign, int, frac, exp, rfl, ?_, ?_, ?_, ?_⟩
  · exact (mem_opt.mp hsign).imp_right mem_text.mp
  · obtain hzero | hint := mem_add.mp hint
    · rw [mem_text.mp hzero]
      exact ⟨by simp, List.forall_mem_singleton.mpr (by decide), fun _ => rfl⟩
    · obtain ⟨first, hfirst, rest, hrest, rfl⟩ := mem_mul.mp hint
      obtain ⟨d, hlo, hhi, rfl⟩ := mem_oneOf_digitRange.mp hfirst
      refine ⟨by simp, List.forall_mem_cons.mpr ⟨isDigit_digitChar (by omega), fun c hc => ?_⟩, ?_⟩
      · exact isDigit_of_mem_digitRange (mem_star_oneOf.mp hrest c hc)
      · intro hhead
        have hd : digitChar d = digitChar 0 := Option.some.inj hhead
        have := digitChar_inj (by omega) (by decide) hd
        omega
  · refine (mem_opt.mp hfrac).imp_right fun hfrac => ?_
    obtain ⟨point, hpoint, ds, hds, rfl⟩ := mem_mul.mp hfrac
    rw [mem_text.mp hpoint]
    exact ⟨ds, rfl, isDigits_of_mem hds⟩
  · refine (mem_opt.mp hexp).imp_right fun hexp => ?_
    obtain ⟨front, hfront, ds, hds, rfl⟩ := mem_mul.mp hexp
    obtain ⟨e, he, es, hes, rfl⟩ := mem_mul.mp hfront
    obtain ⟨c, hc, rfl⟩ := mem_oneOf.mp he
    exact ⟨c, es, ds, rfl, by simpa using hc, (mem_opt.mp hes).imp_right mem_oneOf.mp,
      isDigits_of_mem hds⟩

theorem numParts_fixed {sign : Str} (hsign : sign = [] ∨ sign = [0x2d]) {k : ℕ} (hk : k ≠ 0)
    (q : ℚ) :
    NumParts sign (natText (Decimal.roundEven (q * 10 ^ k) / 10 ^ k))
      (0x2e :: Decimal.places k (Decimal.roundEven (q * 10 ^ k))) [] where
  sign := hsign
  int := Decimal.isInt_natText _
  frac := .inr ⟨_, rfl, fun hnil => hk (by rw [← Decimal.length_places k, hnil]; rfl),
    Decimal.isDigit_places _ _⟩
  exp := .inl rfl

/-- The text of a fraction with a sign. -/
theorem numValue_fixed {sign : Str} (hsign : sign = [] ∨ sign = [0x2d]) {k : ℕ} (hk : k ≠ 0)
    (q : ℚ) :
    numValue (sign ++ fixed k q) =
      some (if sign = [] then Decimal.fixedValue k q else -Decimal.fixedValue k q) := by
  have h := (numParts_fixed hsign hk q).numValue
  rw [List.append_nil, List.append_assoc, List.tail_cons, Decimal.value_natText,
    Decimal.value_places, Decimal.length_places] at h
  have hsize (m : ℕ) : ((m / 10 ^ k : ℕ) + ((m % 10 ^ k : ℕ) : ℚ) / 10 ^ k) * expFactor [] =
      m / 10 ^ k := by
    have hparts : ((m / 10 ^ k : ℕ) : ℚ) * 10 ^ k + (m % 10 ^ k : ℕ) = m := by
      exact_mod_cast Nat.div_add_mod' m (10 ^ k)
    rw [expFactor, mul_one, eq_div_iff (by positivity), add_mul, div_mul_cancel₀ _ (by positivity),
      hparts]
  simp only [hsize] at h
  exact h

/-- The head of a text in front of which there is a sign, or not. -/
theorem head_ne_minus {sign int frac exp : Str} (h : NumParts sign int frac exp) :
    (sign ++ int ++ frac ++ exp).head? = some 0x2d ↔ sign ≠ [] := by
  obtain rfl | rfl := h.sign
  · obtain ⟨c, int, rfl⟩ := List.exists_cons_of_ne_nil h.int.ne_nil
    have hc := h.int.isDigit c List.mem_cons_self
    simp only [List.nil_append, List.cons_append, List.head?_cons, Option.some_inj, ne_eq,
      not_true_eq_false, iff_false]
    rintro rfl
    exact absurd hc (by decide)
  · simp

/-- A valid round-trip time is a number below the limit, with a sign in front only if it is next to
zero. -/
theorem textNumber_of_isValidRtt {s : Str} (h : isValidRtt fmt s = true) :
    numValue s = some (textNumber s) ∧ textNumber s < 10000000 ∧
      (textNumber s ≤ 0 → |textNumber s| ≤ 1 / 2 ^ 100) ∧
      (s.head? = some 0x2d → textNumber s ≤ 0) := by
  simp only [isValidRtt, Bool.and_eq_true, decide_eq_true_eq] at h
  obtain ⟨⟨-, hmatch⟩, hnonneg, hlt⟩ := h
  obtain ⟨sign, int, frac, exp, rfl, hparts⟩ :=
    numParts_of_mem_rttRe ((rmatch_iff_matches' _ _).mp hmatch)
  have hvalue := hparts.numValue
  simp only at hvalue
  have htext : numValue (sign ++ int ++ frac ++ exp) =
      some (textNumber (sign ++ int ++ frac ++ exp)) := by
    rw [textNumber, hvalue, Option.getD_some]
  refine ⟨htext, ?_, fun hneg => fmt.awk.abs_le_of_round_nonneg hneg hnonneg, fun hhead => ?_⟩
  · exact_mod_cast fmt.awk.lt_of_round_lt (n := 10000000) (by norm_num) (by exact_mod_cast hlt)
  have hsign : sign ≠ [] := (head_ne_minus hparts).mp hhead
  rw [hvalue, if_neg hsign, Option.some_inj] at htext
  have hexp : 0 ≤ expFactor exp := by
    unfold expFactor
    split
    · exact zero_le_one
    · split
      split_ifs <;> positivity
  have hsize : 0 ≤ ((Decimal.value int : ℚ) + Decimal.value frac.tail / 10 ^ frac.tail.length) *
      expFactor exp := by
    positivity
  linarith

theorem head_fixed {k : ℕ} (hk : k ≠ 0) (q : ℚ) : (fixed k q).head? ≠ some 0x2d := by
  have h := head_ne_minus (numParts_fixed (.inl rfl) hk q)
  rw [List.append_nil, List.nil_append] at h
  exact fun hhead => h.mp hhead rfl

theorem textNumber_fixed {k : ℕ} (hk : k ≠ 0) (q : ℚ) :
    textNumber (fixed k q) = Decimal.fixedValue k q := by
  have h := numValue_fixed (.inl rfl) hk q
  rw [List.nil_append, if_pos rfl] at h
  rw [textNumber, h, Option.getD_some]

/-- The number that `printf` prints; a sign is printed in front of zeros only. -/
theorem numValue_printfFixed {k : ℕ} (hk : k ≠ 0) {s : Str}
    (hminus : s.head? = some 0x2d → Decimal.fixedValue k |fmt.printfNumber s| = 0) :
    numValue (printfFixed fmt k s) = some (Decimal.fixedValue k |fmt.printfNumber s|) := by
  rw [printfFixed]
  split_ifs with hhead
  · rw [numValue_fixed (.inr rfl) hk, if_neg (by simp), hminus hhead, neg_zero]
  · have hfixed := numValue_fixed (.inl rfl) hk |fmt.printfNumber s|
    rwa [if_pos rfl] at hfixed

/-! ### Escapes -/

theorem standsFor_escapeChar {c : UInt8} (hc : c ≠ 0) : StandsFor (escapeChar c) [c] := by
  by_cases hslash : c = 0x5c
  · rw [escapeChar, if_pos hslash, hslash]
    exact .escape (by decide) rfl
  by_cases hquote : c = 0x22
  · rw [escapeChar, if_neg hslash, if_pos hquote, hquote]
    exact .escape (by decide) rfl
  by_cases hcontrol : 1 ≤ c ∧ c < 0x20
  · rw [escapeChar, if_neg hslash, if_neg hquote, if_pos hcontrol]
    have hunit : ∀ c : UInt8, c < 0x20 →
        Json.unitValue 0x30 0x30 (if c < 0x10 then 0x30 else 0x31)
          (if c % 0x10 < 10 then 0x30 + c % 0x10 else 0x61 + (c % 0x10 - 10)) = some c.toNat ∧
        Json.utf8Bytes c.toNat = [c] ∧ c.toNat < 0xd800 := by
      decide +kernel
    obtain ⟨hvalue, hbytes, hlt⟩ := hunit c hcontrol.2
    exact hbytes ▸ StandsFor.unit hvalue (.inl hlt)
  · rw [escapeChar, if_neg hslash, if_neg hquote, if_neg hcontrol]
    have hpos : 1 ≤ c := by
      rw [UInt8.le_iff_toNat_le]
      exact Nat.one_le_iff_ne_zero.mpr fun h0 => hc (UInt8.toNat_inj.mp h0)
    exact .byte hquote hslash fun hlt => hcontrol ⟨hpos, hlt⟩

/-- The records of a text that does not end with a newline make up the text. -/
theorem intercalate_fileLines {s : Str} (hlast : s.getLast? ≠ some 0x0a) :
    [(0x0a : UInt8)].intercalate (fileLines s) = s := by
  have hsplit : [(0x0a : UInt8)].intercalate (s.splitOnP (· == 0x0a)) = s :=
    List.intercalate_splitOn 0x0a
  simp only [fileLines]
  split_ifs with hempty
  · obtain ⟨lines, hlines⟩ := List.getLast?_eq_some_iff.mp hempty
    rw [hlines, List.dropLast_concat]
    rw [hlines] at hsplit
    by_cases hne : lines = []
    · rw [hne] at hsplit ⊢
      exact hsplit
    · rw [intercalate_concat hne] at hsplit
      exact absurd (List.getLast?_eq_some_iff.mpr ⟨_, hsplit.symm⟩) hlast
  · exact hsplit

theorem mem_of_mem_fileLines {s l : Str} (hl : l ∈ fileLines s) {c : UInt8} (hc : c ∈ l) :
    c ∈ s := by
  have hsplit : [(0x0a : UInt8)].intercalate (s.splitOnP (· == 0x0a)) = s :=
    List.intercalate_splitOn 0x0a
  rw [← hsplit]
  refine mem_intercalate ?_ hc
  simp only [fileLines] at hl
  split_ifs at hl
  · exact List.mem_of_mem_dropLast hl
  · exact hl

/-- **An escaped text stands for the text.** -/
theorem standsFor_jsonEscape {s : Str} (hnul : 0 ∉ s) (hlast : s.getLast? ≠ some 0x0a) :
    StandsFor (jsonEscape s) s := by
  have hnewline : StandsFor (ascii "\\n") [0x0a] := StandsFor.escape (by decide) rfl
  have hrecord : ∀ record ∈ fileLines s, StandsFor (record.flatMap escapeChar) record := by
    intro record hrecord
    exact .flatMap fun c hc => standsFor_escapeChar fun h0 =>
      hnul (mem_of_mem_fileLines hrecord (h0 ▸ hc))
  have hall := hnewline.intercalate hrecord
  rwa [intercalate_fileLines hlast] at hall

/-! ### Lines of samples -/

namespace Sample

/-- The fields of a sample, in their order. -/
def fields (s : Sample) : List Str :=
  [s.tag, s.link, s.rtt, s.lost, s.sent, s.mtu, s.age]

variable {s : Sample}

theorem isUint_of_isUintRange {v max : Str} (h : isUintRange v max = true) :
    v ≠ [] ∧ ∀ c ∈ v, isDigit c = true := by
  simp only [isUintRange, isUint, Bool.and_eq_true] at h
  obtain ⟨⟨⟨⟨hne, hdigits⟩, -⟩, -⟩, -⟩ := h
  exact ⟨by simpa using hne, by simpa using hdigits⟩

/-- A field has characters, and no control character. -/
theorem Valid.of_mem_fields (h : s.Valid fmt) {field : Str} (hfield : field ∈ s.fields) :
    field ≠ [] ∧ ∀ c ∈ field, isCntrl c = false := by
  have hchar : ∀ c : UInt8, (isDigit c || decide (c ∈ ascii ".eE+-")) = true →
      isCntrl c = false := by
    decide +kernel
  have hnumber {v max : Str} (hv : isUintRange v max = true) :
      v ≠ [] ∧ ∀ c ∈ v, isCntrl c = false := by
    obtain ⟨hne, hdigits⟩ := isUint_of_isUintRange hv
    exact ⟨hne, fun c hc => hchar c (by simp [hdigits c hc])⟩
  have hrtt : s.rtt ≠ [] ∧ ∀ c ∈ s.rtt, isCntrl c = false := by
    have hvalid := h.rtt
    simp only [isValidRtt, Bool.and_eq_true, List.all_eq_true] at hvalid
    obtain ⟨⟨⟨hne, hchars⟩, -⟩, -⟩ := hvalid
    exact ⟨by simpa using hne, fun c hc => hchar c (hchars c hc)⟩
  have hlink : s.link ≠ [] ∧ ∀ c ∈ s.link, isCntrl c = false := by
    have hlinks : ∀ link ∈ [ascii "uplink", ascii "downlink"],
        link ≠ [] ∧ ∀ c ∈ link, isCntrl c = false := by
      decide +kernel
    exact hlinks _ h.link
  simp only [fields, List.mem_cons, List.not_mem_nil, or_false] at hfield
  obtain rfl | rfl | rfl | rfl | rfl | rfl | rfl := hfield
  · exact ⟨h.tag_ne_nil, h.tag⟩
  · exact hlink
  · exact hrtt
  · exact hnumber h.lost
  · exact hnumber h.sent
  · exact hnumber h.mtu
  · exact hnumber h.age

/-- The line of a sample is read back. -/
theorem Valid.readSample (h : s.Valid fmt) : readSample (sampleLine s) = s := by
  have hwords : words (· == 0x09) (sampleLine s) = s.fields := by
    refine words_intercalate (by decide) fun field hfield => ?_
    obtain ⟨hne, hcntrl⟩ := h.of_mem_fields hfield
    refine ⟨hne, fun c hc => beq_eq_false_iff_ne.mpr fun htab => ?_⟩
    exact absurd (hcntrl c hc) (by rw [htab]; decide)
  simp [Scripts.readSample, hwords, fields]

theorem Valid.newline_notMem (h : s.Valid fmt) : 0x0a ∉ sampleLine s := fun hmem => by
  obtain htab | ⟨field, hfield, hc⟩ := of_mem_intercalate hmem
  · exact absurd htab (by decide)
  · exact absurd ((h.of_mem_fields hfield).2 _ hc) (by decide)

end Sample

/-- The loop reads the lines of the samples, or an empty line if there is none. -/
theorem fileLines_samplesText {samples : List Sample} (h : ∀ s ∈ samples, s.Valid fmt) :
    fileLines (samplesText samples) =
      if samples = [] then [[]] else samples.map sampleLine := by
  split_ifs with hnil
  · rw [hnil]
    decide
  · have hlines : ∀ l ∈ samples.map sampleLine, 0x0a ∉ l := by
      intro l hl
      obtain ⟨s, hs, rfl⟩ := List.mem_map.mp hl
      exact (h s hs).newline_notMem
    have htext : samplesText samples = unlines (samples.map sampleLine) := by
      obtain ⟨front, last, rfl⟩ := (List.eq_nil_or_concat' samples).resolve_left hnil
      have hlast : 0x0a ∉ sampleLine last := (h last (by simp)).newline_notMem
      have hne : sampleLine last ≠ [] := by simp [sampleLine, List.intercalate_cons_cons]
      have hkeep : (unlines (front.map sampleLine) ++ sampleLine last).rdropWhile (· == 0x0a) =
          unlines (front.map sampleLine) ++ sampleLine last := by
        refine List.rdropWhile_eq_self_iff.mpr fun happend hnewline => hlast ?_
        rw [List.getLast_append_of_ne_nil happend hne, beq_iff_eq] at hnewline
        exact hnewline ▸ List.getLast_mem hne
      rw [samplesText, List.map_append, List.map_singleton, unlines_concat, ← List.append_assoc,
        List.rdropWhile_concat_pos _ _ _ (by decide), hkeep]
    rw [htext, fileLines_unlines hlines]

/-- A loss rate is printed with digits and a point. -/
theorem lossRate_check (lost sent : Str) :
    ((lossRateFrom fmt lost sent).isEmpty ||
      !((lossRateFrom fmt lost sent).all fun c => isDigit c || c == 0x2e)) = false := by
  have hint := (Decimal.isInt_natText
    (Decimal.roundEven (fmt.lossRate lost sent * 10 ^ 4) / 10 ^ 4)).isDigit
  have hplaces := Decimal.isDigit_places 4
    (Decimal.roundEven (fmt.lossRate lost sent * 10 ^ 4))
  rw [lossRateFrom, fixed]
  simp +contextual [isDigit_eq, hint, hplaces]

theorem le_counterMax {v : Str} (h : isUintRange v counterMax = true) :
    decimalValue v ≤ 10 ^ 18 := by
  have hmax : decimalValue counterMax ≤ 10 ^ 18 := by decide +kernel
  simp only [isUintRange, Bool.and_eq_true, decide_eq_true_eq] at h
  exact h.2.trans hmax

/-- The lost packets of a sample for each packet sent. -/
def Sample.lossRatio (s : Sample) : ℚ :=
  decimalValue s.lost / (decimalValue s.sent + 1)

theorem Sample.lossRatio_nonneg (s : Sample) : 0 ≤ s.lossRatio := by
  unfold lossRatio
  positivity

theorem Sample.Valid.lossRatio_le {s : Sample} (h : s.Valid fmt) : s.lossRatio ≤ 10 ^ 18 := by
  have hlost : (decimalValue s.lost : ℚ) ≤ 10 ^ 18 := by exact_mod_cast le_counterMax h.lost
  have hone : (1 : ℚ) ≤ decimalValue s.sent + 1 := by
    linarith [Nat.cast_nonneg (α := ℚ) (decimalValue s.sent)]
  exact (div_le_self (Nat.cast_nonneg _) hone).trans hlost

/-- The text of the loss rate is off by half a unit of its last place, and by what `awk` rounds. -/
theorem abs_lossRateFrom_sub_le {s : Sample} (h : s.Valid fmt) :
    |textNumber (lossRateFrom fmt s.lost s.sent) - s.lossRatio| ≤
      1 / 20000 + (s.lossRatio + 1) / 2 ^ 48 := by
  have hrate : |fmt.lossRate s.lost s.sent - s.lossRatio| ≤ (s.lossRatio + 1) / 2 ^ 48 :=
    fmt.awk.abs_quotient_sub_le (le_counterMax h.lost) (le_counterMax h.sent)
  have hnonneg : 0 ≤ fmt.lossRate s.lost s.sent :=
    fmt.awk.round_nonneg (div_nonneg (fmt.awk.round_nonneg (Nat.cast_nonneg _))
      (fmt.awk.round_nonneg (add_nonneg (fmt.awk.round_nonneg (Nat.cast_nonneg _)) zero_le_one)))
  have hprint := Decimal.abs_fixedValue_sub_le 4 hnonneg
  rw [lossRateFrom, textNumber_fixed (by decide)]
  calc |Decimal.fixedValue 4 (fmt.lossRate s.lost s.sent) - s.lossRatio|
      ≤ |Decimal.fixedValue 4 (fmt.lossRate s.lost s.sent) - fmt.lossRate s.lost s.sent| +
          |fmt.lossRate s.lost s.sent - s.lossRatio| := abs_sub_le _ _ _
    _ ≤ 1 / (2 * 10 ^ 4) + (s.lossRatio + 1) / 2 ^ 48 := add_le_add hprint hrate
    _ = 1 / 20000 + (s.lossRatio + 1) / 2 ^ 48 := by norm_num

theorem textNumber_lossRateFrom_nonneg (fmt : Formats) (lost sent : Str) :
    0 ≤ textNumber (lossRateFrom fmt lost sent) := by
  rw [lossRateFrom, textNumber_fixed (by decide)]
  exact Decimal.fixedValue_nonneg 4

theorem textNumber_lossRateFrom_le {s : Sample} (h : s.Valid fmt) :
    textNumber (lossRateFrom fmt s.lost s.sent) ≤ 2 ^ 62 := by
  have hnear := (abs_le.mp (abs_lossRateFrom_sub_le h)).2
  have hle := h.lossRatio_le
  norm_num at hnear hle ⊢
  linarith

/-- `printf` does not fail at a loss rate. -/
theorem converts_lossRateFrom {s : Sample} (h : s.Valid fmt) :
    fmt.converts (lossRateFrom fmt s.lost s.sent) = true := by
  have hnonneg := textNumber_lossRateFrom_nonneg fmt s.lost s.sent
  have hle := textNumber_lossRateFrom_le h
  have hvalue : numValue (lossRateFrom fmt s.lost s.sent) =
      some (textNumber (lossRateFrom fmt s.lost s.sent)) := by
    have h := numValue_fixed (.inl rfl) (by decide : 4 ≠ 0) (fmt.lossRate s.lost s.sent)
    rw [List.nil_append, if_pos rfl] at h
    rw [textNumber, lossRateFrom, h, Option.getD_some]
  refine fmt.converts_of_numValue _ _ hvalue ?_ ?_
  · rw [abs_of_nonneg hnonneg, lossRateFrom, textNumber_fixed (by decide)]
    exact (Decimal.fixedValue_eq_zero_or_le 4).imp_right fun hle => le_trans (by norm_num) hle
  · rw [abs_of_nonneg hnonneg]
    exact hle.trans (by norm_num)

theorem reportOf_of_valid {s : Sample} (h : s.Valid fmt) (maxAge : ℕ) (cfgName pid : Str) :
    reportOf fmt maxAge cfgName pid s =
      if isAgeStale fmt maxAge s.age then none
      else if fmt.converts s.rtt then some (reportText fmt (cfgName ++ ascii "_" ++ s.tag) pid s.rtt
        (lossRateFrom fmt s.lost s.sent) s.mtu s.link)
      else none := by
  simp only [reportOf, if_neg h.tag_ne_nil, lossRate_check, Bool.false_eq_true, if_false,
    buildReportJson, converts_lossRateFrom h, Bool.and_true]

/-- A round-trip time at which `printf` does not fail. -/
theorem converts_rtt {s : Sample} (h : s.Valid fmt)
    (hrange : textNumber s.rtt = 0 ∨ 1 / 2 ^ 200 ≤ |textNumber s.rtt|) :
    fmt.converts s.rtt = true := by
  obtain ⟨hvalue, hlt, hneg, -⟩ := textNumber_of_isValidRtt h.rtt
  refine fmt.converts_of_numValue _ _ hvalue hrange ?_
  rcases le_total (textNumber s.rtt) 0 with hle | hnonneg
  · exact (hneg hle).trans (by norm_num)
  · rw [abs_of_nonneg hnonneg]
    exact hlt.le.trans (by norm_num)

/-- The samples of all outbounds that are not stale, if all outbounds are identified. -/
def freshSamples (fmt : Formats) (maxAge : ℕ) (len : Str) (nTags : ℕ)
    (jsonGet : Str → Option Str) : List Sample :=
  if AllIdentified len nTags jsonGet then
    ((List.range (decimalValue len)).flatMap (outboundSamples fmt jsonGet)).filter
      fun s => !isAgeStale fmt maxAge s.age
  else []

theorem valid_of_mem_freshSamples {maxAge : ℕ} {s : Sample}
    (hs : s ∈ freshSamples fmt maxAge len nTags jsonGet) : s.Valid fmt := by
  rw [freshSamples] at hs
  split_ifs at hs
  · obtain ⟨idx, -, hs⟩ := List.mem_flatMap.mp (List.mem_filter.mp hs).1
    exact valid_of_mem_outboundSamples hs
  · cases hs

/-- **The reports are those of the fresh samples, in their order**, without those at which `printf`
fails. -/
theorem pollReports_eq (maxAge : ℕ) (cfgName pid : Str) :
    pollReports fmt maxAge cfgName pid len nTags jsonGet =
      ((freshSamples fmt maxAge len nTags jsonGet).filter fun s => fmt.converts s.rtt).map fun s =>
        reportText fmt (cfgName ++ ascii "_" ++ s.tag) pid s.rtt
          (lossRateFrom fmt s.lost s.sent) s.mtu s.link := by
  rw [pollReports, restCollectSamples_eq, freshSamples]
  split_ifs with hall
  swap
  · rfl
  simp only
  generalize hsamples :
    (List.range (decimalValue len)).flatMap (outboundSamples fmt jsonGet) = samples
  have hvalid : ∀ s ∈ samples, s.Valid fmt := by
    intro s hs
    rw [← hsamples] at hs
    obtain ⟨idx, -, hs⟩ := List.mem_flatMap.mp hs
    exact valid_of_mem_outboundSamples hs
  rw [fileLines_samplesText hvalid]
  split_ifs with hnil
  · rw [hnil]
    rfl
  · rw [List.filterMap_map, List.filter_filter, ← List.filterMap_eq_map, ← List.filterMap_eq_filter,
      List.filterMap_filterMap]
    refine List.filterMap_congr fun s hs => ?_
    rw [Function.comp_apply, (hvalid s hs).readSample, reportOf_of_valid (hvalid s hs)]
    cases hstale : isAgeStale fmt maxAge s.age <;> cases hconverts : fmt.converts s.rtt <;>
      simp [hstale, hconverts, Option.guard]

end XtpRs.Scripts
