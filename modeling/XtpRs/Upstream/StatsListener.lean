import XtpRs.Scripts.StatsReport
import XtpRs.Sniff.Hosts
import XtpRs.Upstream.Penalty
import XtpRs.Upstream.ScoreMonotone

/-!
# The receiver of probe reports

`run_upstream_stats_listener` of `src/upstream.rs` reads datagrams into a buffer of 2048 bytes,
takes each for a JSON text, and records the report for the upstream with its id. What does not fit
in the buffer is lost. The texts come from the reporter (`Scripts.StatsReport`).

A report is read by the rules of `serde`: members in any order, unknown ones skipped, none twice, or
an array of the fields. The listener takes a number for what its text stands for, without the last
rounding; the rounding of the reporter is a parameter (`Formats`).

## Main definitions

* `ShadowQuicReport`, `receiveReport`: a report and how it is read from a datagram.
* `onDatagram`: what the listener does with a datagram.

## Main results

* `receiveReport_reportText`: a report is read as it was built, or not at all.
* `reports_recorded`: what the listener makes of the reports for a process.
-/

namespace XtpRs.Upstream

open Lib Lib.Json Scripts
open Score (ScoreM)
open Sniff (fromUtf8)

/-! ### Reports -/

/-- `ShadowQuicReport` -/
structure ShadowQuicReport where
  upstreamId : Str
  peer : Str
  rttMs : F64
  lossRate : F64
  mtu : UInt16
  link : Option Str
  deriving DecidableEq

namespace ShadowQuicReport

/-- A `String`. -/
def deString : Value → Option Str
  | .str items => (decodeItems items).bind fromUtf8
  | _ => none

/-- An `Option<String>`. -/
def deOptionString : Value → Option (Option Str)
  | .null => some none
  | v => (deString v).map some

/-- From here on a number rounds to infinity, which is an error. -/
def f64Limit : ℚ :=
  2 ^ 1024 - 2 ^ 970

/-- An `f64`. -/
def deF64 : Value → Option F64
  | .num t => do
    let q ← numValue t
    if |q| < f64Limit then return .finite q else none
  | _ => none

/-- A `u16`: a number without sign, fraction and exponent. -/
def deU16 : Value → Option UInt16
  | .num t =>
    if t.all Decimal.isDigit ∧ Decimal.value t ≤ 65535 then some (.ofNat (Decimal.value t))
    else none
  | _ => none

/-- The fields that have been read. -/
structure Fields where
  upstreamId : Option Str := none
  peer : Option Str := none
  rttMs : Option F64 := none
  lossRate : Option F64 := none
  mtu : Option UInt16 := none
  link : Option (Option Str) := none

/-- A field that must not be there yet. -/
def once {α : Type} (field : Option α) (v : Option α) : Option (Option α) :=
  if field.isSome then none else v.map some

/-- One member. -/
def visitMember (f : Fields) (m : List Item × Value) : Option Fields := do
  let key ← (decodeItems m.1).bind fromUtf8
  if key = ascii "upstream_id" then
    return { f with upstreamId := ← once f.upstreamId (deString m.2) }
  else if key = ascii "peer" then return { f with peer := ← once f.peer (deString m.2) }
  else if key = ascii "rtt_ms" then return { f with rttMs := ← once f.rttMs (deF64 m.2) }
  else if key = ascii "loss_rate" then return { f with lossRate := ← once f.lossRate (deF64 m.2) }
  else if key = ascii "mtu" then return { f with mtu := ← once f.mtu (deU16 m.2) }
  else if key = ascii "link" then return { f with link := ← once f.link (deOptionString m.2) }
  else return f

/-- A report from the fields that have been read; `link` may be missing. -/
def ofFields (f : Fields) : Option ShadowQuicReport := do
  return {
    upstreamId := ← f.upstreamId
    peer := ← f.peer
    rttMs := ← f.rttMs
    lossRate := ← f.lossRate
    mtu := ← f.mtu
    link := f.link.getD none }

/-- A report from an object, or from an array in which the last field may be missing. -/
def ofValue : Value → Option ShadowQuicReport
  | .obj members => do ofFields (← members.foldlM visitMember {})
  | .arr (upstreamId :: peer :: rttMs :: lossRate :: mtu :: more) => do
    let link ← match more with
      | [] => some none
      | [link] => deOptionString link
      | _ => none
    return {
      upstreamId := ← deString upstreamId
      peer := ← deString peer
      rttMs := ← deF64 rttMs
      lossRate := ← deF64 lossRate
      mtu := ← deU16 mtu
      link }
  | _ => none

end ShadowQuicReport

/-! ### The listener -/

/-- The report in a datagram, as far as it fits in the buffer. -/
def receiveReport (datagram : List UInt8) : Option ShadowQuicReport :=
  (parse (datagram.take 2048)).bind ShadowQuicReport.ofValue

/-- `probe_quality`, with the exponential function of `f64`. -/
def probeQuality (exp : ℚ → ℚ) (rttMs lossRate : F64) (mtu : UInt16) : Option ℚ :=
  match rttMs, lossRate with
  | .finite rttMs, .finite lossRate =>
    if rttMs < 0 ∨ ¬(0 ≤ lossRate ∧ lossRate ≤ 1) then none
    else
      let rttQ := 1 / (1 + rttMs / 50)
      let lossQ := exp (-lossRate * 10)
      let mtuQ : ℚ := min mtu.toNat 1400 / 1400
      some (max 0 (min (rttQ * lossQ * mtuQ) 1))
  | _, _ => none

/-- What the listener reads of a configuration: `disable_upstream_score` and
`enable_relative_scoring`. -/
structure ListenerSettings where
  disableUpstreamScore : Bool
  enableRelativeScoring : Bool

/-- What the listener records for a report. -/
def onReport (exp : ℚ → ℚ) (cfg : ListenerSettings) (ups : List Upstream) (rep : ShadowQuicReport) :
    ScoreM ups.length Unit :=
  if cfg.disableUpstreamScore then pure ()
  else
    -- `find_by_id`
    match ups.findFinIdx? fun up => up.id = rep.upstreamId with
    | none => pure ()
    | some up =>
      Score.recordReport cfg.enableRelativeScoring up
        (calcQuicScore rep.rttMs rep.lossRate rep.mtu)
        (probeQuality exp rep.rttMs rep.lossRate rep.mtu) rep.link

/-- What the listener does with a datagram. -/
def onDatagram (exp : ℚ → ℚ) (cfg : ListenerSettings) (ups : List Upstream)
    (datagram : List UInt8) : ScoreM ups.length Unit :=
  match receiveReport datagram with
  | none => pure ()
  | some rep => onReport exp cfg ups rep

/-! ### A report that was built -/

/-- A text within quotes. -/
def quoted (t : Str) : Str :=
  0x22 :: (t ++ [0x22])

variable {fmt : Formats} {upstreamId peer rtt lossRate mtu link : Str}

/-- A report is an object with six members. -/
theorem reportText_eq :
    reportText fmt upstreamId peer rtt lossRate mtu link = objectText
      [(ascii "upstream_id", quoted (jsonEscape upstreamId)), (ascii "peer", quoted peer),
        (ascii "rtt_ms", printfFixed fmt 3 rtt), (ascii "loss_rate", printfFixed fmt 4 lossRate),
        (ascii "mtu", printfInt mtu), (ascii "link", quoted link)] := by
  simp [reportText, objectText, memberText, quoted, ascii, List.intercalate_cons_cons]

theorem exists_items {text : Str} (htext : ∀ c ∈ text, c ≠ 0x22 ∧ c ≠ 0x5c ∧ ¬c < 0x20) :
    ∃ items, decodeItems items = some text ∧
      ∀ rest, readItems (text ++ 0x22 :: rest) = some (items, rest) :=
  (StandsFor.plain htext).readItems

theorem readsAs_printfFixed {k : ℕ} (hk : k ≠ 0) (t : Str) :
    ReadsAs (printfFixed fmt k t) (.num (printfFixed fmt k t)) := by
  have hsign : (if t.head? = some 0x2d then [0x2d] else [] : Str) = [] ∨
      (if t.head? = some 0x2d then [0x2d] else [] : Str) = [0x2d] := by
    split_ifs <;> simp
  have h := (numParts_fixed hsign hk |fmt.printfNumber t|).readsAs
  rwa [List.append_nil, List.append_assoc] at h

theorem readsAs_printfInt (t : Str) : ReadsAs (printfInt t) (.num (printfInt t)) := by
  have h : NumParts [] (Decimal.natText (decimalValue t)) [] [] :=
    ⟨.inl rfl, Decimal.isInt_natText _, .inl rfl, .inl rfl⟩
  have hreads := h.readsAs
  rwa [List.append_nil, List.append_nil, List.nil_append] at hreads

namespace ShadowQuicReport

theorem visitMember_eq {items : List Item} {key : Str} (hitems : decodeItems items = some key)
    (hkey : fromUtf8 key = some key) (f : Fields) (v : Value) :
    visitMember f (items, v) =
      if key = ascii "upstream_id" then do
        return { f with upstreamId := ← once f.upstreamId (deString v) }
      else if key = ascii "peer" then do return { f with peer := ← once f.peer (deString v) }
      else if key = ascii "rtt_ms" then do return { f with rttMs := ← once f.rttMs (deF64 v) }
      else if key = ascii "loss_rate" then do
        return { f with lossRate := ← once f.lossRate (deF64 v) }
      else if key = ascii "mtu" then do return { f with mtu := ← once f.mtu (deU16 v) }
      else if key = ascii "link" then do return { f with link := ← once f.link (deOptionString v) }
      else return f := by
  simp only [visitMember, hitems, hkey, Option.bind_some, Option.bind_eq_bind]

end ShadowQuicReport

open ShadowQuicReport in
/-- The members of a report that was built are read as its fields. -/
theorem ofValue_members {k₁ k₂ k₃ k₄ k₅ k₆ i₁ i₂ i₆ : List Item} {t₃ t₄ t₅ : Str}
    {rttMs loss : F64} {mtu : UInt16}
    (hk₁ : decodeItems k₁ = some (ascii "upstream_id")) (hk₂ : decodeItems k₂ = some (ascii "peer"))
    (hk₃ : decodeItems k₃ = some (ascii "rtt_ms")) (hk₄ : decodeItems k₄ = some (ascii "loss_rate"))
    (hk₅ : decodeItems k₅ = some (ascii "mtu")) (hk₆ : decodeItems k₆ = some (ascii "link"))
    (hi₁ : decodeItems i₁ = some upstreamId) (hi₂ : decodeItems i₂ = some peer)
    (hpeer : fromUtf8 peer = some peer) (h₃ : deF64 (.num t₃) = some rttMs)
    (h₄ : deF64 (.num t₄) = some loss) (h₅ : deU16 (.num t₅) = some mtu)
    (hi₆ : decodeItems i₆ = some link) (hlink : fromUtf8 link = some link) :
    ofValue (.obj [(k₁, .str i₁), (k₂, .str i₂), (k₃, .num t₃), (k₄, .num t₄), (k₅, .num t₅),
      (k₆, .str i₆)]) =
      (fromUtf8 upstreamId).map fun upstreamId =>
        { upstreamId, peer, rttMs, lossRate := loss, mtu, link := some link } := by
  have hkeys : ∀ key ∈ [ascii "upstream_id", ascii "peer", ascii "rtt_ms", ascii "loss_rate",
      ascii "mtu", ascii "link"], fromUtf8 key = some key := by
    decide +kernel
  have h₁ : deString (.str i₁) = fromUtf8 upstreamId := by rw [deString, hi₁]; rfl
  have h₂ : deString (.str i₂) = some peer := by rw [deString, hi₂]; exact hpeer
  have h₆ : deOptionString (.str i₆) = some (some link) := by
    rw [deOptionString, deString, hi₆, Option.bind_some, hlink]
    · rfl
    · simp
  have hv₁ (f : Fields) : visitMember f (k₁, .str i₁) =
      (once f.upstreamId (fromUtf8 upstreamId)).bind fun v => some { f with upstreamId := v } := by
    rw [visitMember_eq hk₁ (hkeys _ (by simp)), if_pos rfl, h₁]
    rfl
  have hv₂ (f : Fields) : visitMember f (k₂, .str i₂) =
      (once f.peer (some peer)).bind fun v => some { f with peer := v } := by
    rw [visitMember_eq hk₂ (hkeys _ (by simp)), if_neg (by decide), if_pos rfl, h₂]
    rfl
  have hv₃ (f : Fields) : visitMember f (k₃, .num t₃) =
      (once f.rttMs (some rttMs)).bind fun v => some { f with rttMs := v } := by
    rw [visitMember_eq hk₃ (hkeys _ (by simp)), if_neg (by decide), if_neg (by decide), if_pos rfl,
      h₃]
    rfl
  have hv₄ (f : Fields) : visitMember f (k₄, .num t₄) =
      (once f.lossRate (some loss)).bind fun v => some { f with lossRate := v } := by
    rw [visitMember_eq hk₄ (hkeys _ (by simp)), if_neg (by decide), if_neg (by decide),
      if_neg (by decide), if_pos rfl, h₄]
    rfl
  have hv₅ (f : Fields) : visitMember f (k₅, .num t₅) =
      (once f.mtu (some mtu)).bind fun v => some { f with mtu := v } := by
    rw [visitMember_eq hk₅ (hkeys _ (by simp)), if_neg (by decide), if_neg (by decide),
      if_neg (by decide), if_neg (by decide), if_pos rfl, h₅]
    rfl
  have hv₆ (f : Fields) : visitMember f (k₆, .str i₆) =
      (once f.link (some (some link))).bind fun v => some { f with link := v } := by
    rw [visitMember_eq hk₆ (hkeys _ (by simp)), if_neg (by decide), if_neg (by decide),
      if_neg (by decide), if_neg (by decide), if_neg (by decide), if_pos rfl, h₆]
    rfl
  simp only [ofValue, List.foldlM_cons, List.foldlM_nil, hv₁, hv₂, hv₃, hv₄, hv₅, hv₆, once]
  cases fromUtf8 upstreamId with
  | none => rfl
  | some id => rfl

/-! ### Numbers -/

theorem lt_f64Limit : (2 : ℚ) ^ 64 + 1 < ShadowQuicReport.f64Limit := by
  have hpow : (2 : ℚ) ^ 1024 = 2 ^ 970 * 2 ^ 54 := by rw [← pow_add]
  have hle : (2 : ℚ) ^ 64 ≤ 2 ^ 970 := pow_le_pow_right₀ (by norm_num) (by norm_num)
  rw [ShadowQuicReport.f64Limit, hpow]
  generalize (2 : ℚ) ^ 970 = x at hle
  norm_num at hle ⊢
  linarith

/-- The numbers of a report are far from what rounds to infinity. -/
theorem deF64_printfFixed {k : ℕ} (hk : k ≠ 0) {t : Str} (hle : |fmt.printfNumber t| ≤ 2 ^ 64)
    (hminus : t.head? = some 0x2d → Decimal.fixedValue k |fmt.printfNumber t| = 0) :
    ShadowQuicReport.deF64 (.num (printfFixed fmt k t)) =
      some (.finite (Decimal.fixedValue k |fmt.printfNumber t|)) := by
  have hnear := (abs_le.mp (Decimal.abs_fixedValue_sub_le k (abs_nonneg (fmt.printfNumber t)))).2
  have hhalf : (1 : ℚ) / (2 * 10 ^ k) ≤ 1 := by
    rw [div_le_one (by positivity)]
    linarith [one_le_pow₀ (n := k) (by norm_num : (1 : ℚ) ≤ 10)]
  have hlt : abs (Decimal.fixedValue k |fmt.printfNumber t|) < ShadowQuicReport.f64Limit := by
    rw [abs_of_nonneg (Decimal.fixedValue_nonneg k)]
    linarith [lt_f64Limit]
  rw [ShadowQuicReport.deF64, numValue_printfFixed hk hminus]
  exact if_pos hlt

theorem deU16_printfInt {t : Str} (h : decimalValue t ≤ 65535) :
    ShadowQuicReport.deU16 (.num (printfInt t)) = some (.ofNat (decimalValue t)) := by
  have hvalue : Decimal.value (printfInt t) = decimalValue t := Decimal.value_natText _
  have hdigits : (printfInt t).all Decimal.isDigit = true :=
    List.all_eq_true.mpr (Decimal.isInt_natText _).isDigit
  rw [ShadowQuicReport.deU16, hvalue]
  exact if_pos ⟨hdigits, h⟩

theorem decimalValue_le_of_isUintRange {v max : Str} (h : isUintRange v max = true) :
    decimalValue v ≤ decimalValue max := by
  simp only [isUintRange, Bool.and_eq_true, decide_eq_true_eq] at h
  exact h.2

/-- The round-trip time of a sample as the listener reads it. -/
def recordedRtt (fmt : Formats) (s : Sample) : ℚ :=
  Decimal.fixedValue 3 |fmt.printfNumber s.rtt|

/-- The loss rate of a sample as the listener reads it. -/
def recordedLoss (fmt : Formats) (s : Sample) : ℚ :=
  Decimal.fixedValue 4 |fmt.printfNumber (lossRateFrom fmt s.lost s.sent)|

/-- What the listener reads for a sample. -/
def sampleReport (fmt : Formats) (upstreamId : Str) (pid : ℕ) (s : Sample) :
    ShadowQuicReport where
  upstreamId
  peer := Decimal.natText pid
  rttMs := .finite (recordedRtt fmt s)
  lossRate := .finite (recordedLoss fmt s)
  mtu := .ofNat (decimalValue s.mtu)
  link := some s.link

variable {s : Sample}

/-- A valid round-trip time is in the range of `printf`. -/
theorem abs_printfNumber_rtt_sub_le (h : s.Valid fmt) :
    |fmt.printfNumber s.rtt - textNumber s.rtt| ≤ 1 / 2 ^ 29 := by
  obtain ⟨-, hlt, hneg, -⟩ := textNumber_of_isValidRtt h.rtt
  have habs : |textNumber s.rtt| ≤ 10000000 := by
    rcases le_total (textNumber s.rtt) 0 with hle | hnonneg
    · exact (hneg hle).trans (by norm_num)
    · rw [abs_of_nonneg hnonneg]
      exact hlt.le
  have hnear := fmt.printf.near (textNumber s.rtt) (habs.trans (by norm_num))
  rw [Formats.printfNumber]
  norm_num at hnear ⊢
  linarith

/-- A time that is next to zero is printed as zero. -/
theorem recordedRtt_eq_zero (h : s.Valid fmt) (hneg : textNumber s.rtt ≤ 0) :
    recordedRtt fmt s = 0 := by
  have hsmall := (textNumber_of_isValidRtt h.rtt).2.2.1 hneg
  have hnear := fmt.printf.near (textNumber s.rtt) (hsmall.trans (by norm_num))
  have hsum : |fmt.printfNumber s.rtt| ≤
      |fmt.printfNumber s.rtt - textNumber s.rtt| + |textNumber s.rtt| := by
    simpa using abs_add_le (fmt.printfNumber s.rtt - textNumber s.rtt) (textNumber s.rtt)
  refine Decimal.fixedValue_eq_zero _ ?_
  rw [Formats.printfNumber] at hsum ⊢
  norm_num at hnear hsmall ⊢
  linarith

theorem deF64_rtt (h : s.Valid fmt) :
    ShadowQuicReport.deF64 (.num (printfFixed fmt 3 s.rtt)) =
      some (.finite (recordedRtt fmt s)) := by
  obtain ⟨-, hlt, hneg, hminus⟩ := textNumber_of_isValidRtt h.rtt
  refine deF64_printfFixed (by decide) ?_ fun hhead => recordedRtt_eq_zero h (hminus hhead)
  obtain ⟨hlow, hhigh⟩ := abs_le.mp (abs_printfNumber_rtt_sub_le h)
  rcases le_total (textNumber s.rtt) 0 with hle | hnonneg
  · obtain ⟨hsmall, -⟩ := abs_le.mp (hneg hle)
    rw [abs_le]
    constructor <;> norm_num at * <;> linarith
  · rw [abs_le]
    constructor <;> norm_num at * <;> linarith

/-- The round-trip time is off by half a unit of its last place, and by what `printf` rounds. -/
theorem abs_recordedRtt_sub_le (h : s.Valid fmt) :
    |recordedRtt fmt s - textNumber s.rtt| ≤ 1 / 2000 + 1 / 2 ^ 29 := by
  rcases le_total (textNumber s.rtt) 0 with hneg | hnonneg
  · have hsmall := (textNumber_of_isValidRtt h.rtt).2.2.1 hneg
    rw [recordedRtt_eq_zero h hneg, zero_sub, abs_neg]
    exact hsmall.trans (by norm_num)
  · have hround : 0 ≤ fmt.printfNumber s.rtt := fmt.printf.round_nonneg hnonneg
    have hprint := Decimal.abs_fixedValue_sub_le 3 hround
    rw [recordedRtt, abs_of_nonneg hround]
    calc |Decimal.fixedValue 3 (fmt.printfNumber s.rtt) - textNumber s.rtt|
        ≤ |Decimal.fixedValue 3 (fmt.printfNumber s.rtt) - fmt.printfNumber s.rtt| +
            |fmt.printfNumber s.rtt - textNumber s.rtt| := abs_sub_le _ _ _
      _ ≤ 1 / (2 * 10 ^ 3) + 1 / 2 ^ 29 := add_le_add hprint (abs_printfNumber_rtt_sub_le h)
      _ = 1 / 2000 + 1 / 2 ^ 29 := by norm_num

theorem deF64_loss (h : s.Valid fmt) :
    ShadowQuicReport.deF64 (.num (printfFixed fmt 4 (lossRateFrom fmt s.lost s.sent))) =
      some (.finite (recordedLoss fmt s)) := by
  have hnonneg := textNumber_lossRateFrom_nonneg fmt s.lost s.sent
  have hle := textNumber_lossRateFrom_le h
  refine deF64_printfFixed (by decide) ?_ fun hhead => absurd hhead (head_fixed (by decide) _)
  have hnear := fmt.printf.near (textNumber (lossRateFrom fmt s.lost s.sent)) (by
    rw [abs_of_nonneg hnonneg]
    exact hle.trans (by norm_num))
  rw [abs_of_nonneg hnonneg] at hnear
  rw [Formats.printfNumber, abs_of_nonneg (fmt.printf.round_nonneg hnonneg)]
  have hhigh := (abs_le.mp hnear).2
  norm_num at hhigh hle ⊢
  linarith

/-- The loss rate is off by half a unit of its last place, and by what the two formats round. -/
theorem abs_recordedLoss_sub_le (h : s.Valid fmt) :
    |recordedLoss fmt s - s.lossRatio| ≤ 1 / 20000 + (s.lossRatio + 1) / 2 ^ 47 := by
  have hnonneg := textNumber_lossRateFrom_nonneg fmt s.lost s.sent
  have hle := textNumber_lossRateFrom_le h
  have htext := abs_lossRateFrom_sub_le h
  have hratio := s.lossRatio_nonneg
  have hfixed : textNumber (lossRateFrom fmt s.lost s.sent) =
      Decimal.fixedValue 4 (fmt.lossRate s.lost s.sent) := textNumber_fixed (by decide) _
  rw [recordedLoss, Formats.printfNumber, abs_of_nonneg (fmt.printf.round_nonneg hnonneg)]
  rw [hfixed] at hle htext ⊢
  have hreprint := fmt.printf.abs_reprint_sub_le 4 (hle.trans (by norm_num))
  generalize Decimal.fixedValue 4 (fmt.lossRate s.lost s.sent) = v at hreprint htext ⊢
  generalize s.lossRatio = x at htext hratio ⊢
  calc |Decimal.fixedValue 4 (fmt.printf.round v) - x|
      ≤ |Decimal.fixedValue 4 (fmt.printf.round v) - v| + |v - x| := abs_sub_le _ _ _
    _ ≤ (v + 1) / 2 ^ 52 + (1 / 20000 + (x + 1) / 2 ^ 48) := add_le_add hreprint htext
    _ ≤ 1 / 20000 + (x + 1) / 2 ^ 47 := by
      have hv := (abs_le.mp htext).2
      norm_num at hv ⊢
      linarith

/-! ### The report as a whole -/

/-- The report of a sample. -/
theorem exists_members {s : Sample} (h : s.Valid fmt) (hnul : 0 ∉ upstreamId)
    (hlast : upstreamId.getLast? ≠ some 0x0a) (pid : ℕ) :
    ∃ m ms v vs, MemberReadsAs m v ∧ List.Forall₂ MemberReadsAs ms vs ∧
      reportText fmt upstreamId (Decimal.natText pid) s.rtt (lossRateFrom fmt s.lost s.sent)
        s.mtu s.link = objectText (m :: ms) ∧
      ShadowQuicReport.ofValue (.obj (v :: vs)) =
        (fromUtf8 upstreamId).map fun upstreamId => sampleReport fmt upstreamId pid s := by
  have hplain : ∀ key ∈ [ascii "upstream_id", ascii "peer", ascii "rtt_ms", ascii "loss_rate",
      ascii "mtu", ascii "link", ascii "uplink", ascii "downlink"],
      (∀ c ∈ key, c ≠ 0x22 ∧ c ≠ 0x5c ∧ ¬c < 0x20) ∧ fromUtf8 key = some key := by
    decide +kernel
  obtain ⟨k₁, hk₁, hread₁⟩ := exists_items (hplain (ascii "upstream_id") (by simp)).1
  obtain ⟨k₂, hk₂, hread₂⟩ := exists_items (hplain (ascii "peer") (by simp)).1
  obtain ⟨k₃, hk₃, hread₃⟩ := exists_items (hplain (ascii "rtt_ms") (by simp)).1
  obtain ⟨k₄, hk₄, hread₄⟩ := exists_items (hplain (ascii "loss_rate") (by simp)).1
  obtain ⟨k₅, hk₅, hread₅⟩ := exists_items (hplain (ascii "mtu") (by simp)).1
  obtain ⟨k₆, hk₆, hread₆⟩ := exists_items (hplain (ascii "link") (by simp)).1
  have hdigit : ∀ c : UInt8, Decimal.isDigit c = true →
      (c ≠ 0x22 ∧ c ≠ 0x5c ∧ ¬c < 0x20) ∧ c < 0x80 := by
    decide +kernel
  have hpid := (Decimal.isInt_natText pid).isDigit
  have hpeer : fromUtf8 (Decimal.natText pid) = some (Decimal.natText pid) :=
    Sniff.fromUtf8_of_ascii fun c hc => (hdigit c (hpid c hc)).2
  have hlinks : s.link = ascii "uplink" ∨ s.link = ascii "downlink" := by
    simpa using h.link
  have hlink : (∀ c ∈ s.link, c ≠ 0x22 ∧ c ≠ 0x5c ∧ ¬c < 0x20) ∧ fromUtf8 s.link = some s.link := by
    obtain hlink | hlink := hlinks <;> rw [hlink] <;> exact hplain _ (by simp)
  obtain ⟨i₁, hi₁, hreads₁⟩ := (standsFor_jsonEscape hnul hlast).readsAs
  obtain ⟨i₂, hi₂, hreads₂⟩ :=
    (StandsFor.plain fun c hc => (hdigit c (hpid c hc)).1).readsAs
  obtain ⟨i₆, hi₆, hreads₆⟩ := (StandsFor.plain hlink.1).readsAs
  refine ⟨(ascii "upstream_id", quoted (jsonEscape upstreamId)),
    [(ascii "peer", quoted (Decimal.natText pid)), (ascii "rtt_ms", printfFixed fmt 3 s.rtt),
      (ascii "loss_rate", printfFixed fmt 4 (lossRateFrom fmt s.lost s.sent)),
      (ascii "mtu", printfInt s.mtu), (ascii "link", quoted s.link)],
    (k₁, .str i₁), [(k₂, .str i₂), (k₃, .num (printfFixed fmt 3 s.rtt)),
      (k₄, .num (printfFixed fmt 4 (lossRateFrom fmt s.lost s.sent))), (k₅, .num (printfInt s.mtu)),
      (k₆, .str i₆)], ⟨hread₁, hreads₁⟩, ?_, reportText_eq, ?_⟩
  · exact .cons ⟨hread₂, hreads₂⟩ (.cons ⟨hread₃, readsAs_printfFixed (by decide) _⟩
      (.cons ⟨hread₄, readsAs_printfFixed (by decide) _⟩
        (.cons ⟨hread₅, readsAs_printfInt _⟩ (.cons ⟨hread₆, hreads₆⟩ .nil))))
  · have hmtu := decimalValue_le_of_isUintRange h.mtu
    have hmax : decimalValue (ascii "65535") ≤ 65535 := by decide +kernel
    exact ofValue_members hk₁ hk₂ hk₃ hk₄ hk₅ hk₆ hi₁ hi₂ hpeer (deF64_rtt h) (deF64_loss h)
      (deU16_printfInt (hmtu.trans hmax)) hi₆ hlink.2

/-- **A report is read as it was built, or not at all.** -/
theorem receiveReport_reportText {s : Sample} (h : s.Valid fmt) (hnul : 0 ∉ upstreamId)
    (hlast : upstreamId.getLast? ≠ some 0x0a) (pid : ℕ) :
    let report := reportText fmt upstreamId (Decimal.natText pid) s.rtt
      (lossRateFrom fmt s.lost s.sent) s.mtu s.link
    receiveReport (report ++ [0x0a]) =
      if report.length ≤ 2048 then
        (fromUtf8 upstreamId).map fun upstreamId => sampleReport fmt upstreamId pid s
      else none := by
  intro report
  obtain ⟨m, ms, v, vs, hm, hms, hreport, hvalue⟩ := exists_members h hnul hlast pid
  have hreport : report = objectText (m :: ms) := hreport
  split_ifs with hlength
  · have htake : (report ++ [0x0a]).take 2048 = objectText (m :: ms) ++
        ([0x0a] : Str).take (2048 - report.length) := by
      rw [List.take_append, List.take_of_length_le hlength, hreport]
    have hws : ∀ c ∈ ([0x0a] : Str).take (2048 - report.length), isWs c = true := fun c hc => by
      rw [List.mem_singleton.mp (List.mem_of_mem_take hc)]
      rfl
    rw [receiveReport, htake, parse_objectText hm hms hws, Option.bind_some, hvalue]
  · have htake : (report ++ [0x0a]).take 2048 = report.take 2048 :=
      List.take_append_of_le_length (by omega)
    have hne : report.take 2048 ≠ objectText (m :: ms) := fun heq => by
      have := congrArg List.length heq
      rw [List.length_take, ← hreport] at this
      omega
    rw [receiveReport, htake, parse_of_prefix hm hms (hreport ▸ List.take_prefix _ _) hne]
    rfl

/-! ### The reports for a process -/

variable {exp : ℚ → ℚ} {cfg : ListenerSettings} {ups : List Upstream}

/-- A report changes no score of an upstream with another id. -/
theorem scores_onReport {rep : ShadowQuicReport} {mem mem' : ∀ c : Score.Cell ups.length, c.Val}
    {x : UInt64} (h : (onReport exp cfg ups rep).exec x mem = some ((), mem')) {up : Fin ups.length}
    (hup : (ups.get up).id ≠ rep.upstreamId) : Score.scores mem' up = Score.scores mem up := by
  have hpure (h : (pure () : ScoreM ups.length Unit).exec x mem = some ((), mem')) :
      Score.scores mem' up = Score.scores mem up := by
    rw [Prog.exec_pure, Option.some_inj] at h
    rw [(Prod.mk.inj h).2]
  rw [onReport] at h
  split_ifs at h
  · exact hpure h
  · split at h
    · exact hpure h
    · next found hfound =>
      have hid : (ups.get found).id = rep.upstreamId := by
        simpa using (List.findFinIdx?_eq_some_iff.mp hfound).1
      exact Score.scores_of_confinedTo (Score.confined_recordReport _ _ _ _ _) h
        fun heq => hup (heq ▸ hid)

/-- What the listener makes of the report for a sample. -/
structure Recorded (fmt : Formats) (exp : ℚ → ℚ) (cfg : ListenerSettings) (ups : List Upstream)
    (cfgName : Str) (pid : ℕ) (s : Sample) (report : Str) : Prop where
  onDatagram :
    let upstreamId := cfgName ++ ascii "_" ++ s.tag
    onDatagram exp cfg ups (report ++ [0x0a]) =
      if report.length ≤ 2048 ∧ fromUtf8 upstreamId = some upstreamId then
        onReport exp cfg ups (sampleReport fmt upstreamId pid s)
      else pure ()
  rtt : |recordedRtt fmt s - textNumber s.rtt| ≤ 1 / 2000 + 1 / 2 ^ 29
  loss : |recordedLoss fmt s - s.lossRatio| ≤ 1 / 20000 + (s.lossRatio + 1) / 2 ^ 47
  others : ∀ (x : UInt64) (mem mem' : ∀ c : Score.Cell ups.length, c.Val),
    (Upstream.onDatagram exp cfg ups (report ++ [0x0a])).exec x mem = some ((), mem') →
    ∀ up, (ups.get up).id ≠ cfgName ++ ascii "_" ++ s.tag →
      Score.scores mem' up = Score.scores mem up

/-- The id of an upstream begins with the name of the configuration and ends with the tag. -/
theorem upstreamId_text {s : Sample} (h : s.Valid fmt) {cfgName : Str} (hname : 0 ∉ cfgName) :
    0 ∉ cfgName ++ ascii "_" ++ s.tag ∧ (cfgName ++ ascii "_" ++ s.tag).getLast? ≠ some 0x0a := by
  constructor
  · simp only [List.mem_append, not_or]
    exact ⟨⟨hname, by decide⟩, fun htag => absurd (h.tag _ htag) (by decide)⟩
  · rw [List.getLast?_append_of_ne_nil _ h.tag_ne_nil]
    exact fun hlast => absurd (h.tag _ (List.mem_of_getLast? hlast)) (by decide)

theorem recorded {s : Sample} (h : s.Valid fmt) {cfgName : Str} (hname : 0 ∉ cfgName) (pid : ℕ) :
    Recorded fmt exp cfg ups cfgName pid s (reportText fmt (cfgName ++ ascii "_" ++ s.tag)
      (Decimal.natText pid) s.rtt (lossRateFrom fmt s.lost s.sent) s.mtu s.link) := by
  obtain ⟨hnul, hlast⟩ := upstreamId_text h hname
  have hreceive := receiveReport_reportText h hnul hlast pid
  have hdatagram : let upstreamId := cfgName ++ ascii "_" ++ s.tag
      let report := reportText fmt upstreamId (Decimal.natText pid) s.rtt
        (lossRateFrom fmt s.lost s.sent) s.mtu s.link
      onDatagram exp cfg ups (report ++ [0x0a]) =
        if report.length ≤ 2048 ∧ fromUtf8 upstreamId = some upstreamId then
          onReport exp cfg ups (sampleReport fmt upstreamId pid s)
        else pure () := by
    intro upstreamId report
    rw [onDatagram, hreceive]
    by_cases hlength : report.length ≤ 2048
    · rw [if_pos hlength]
      by_cases hutf8 : fromUtf8 upstreamId = some upstreamId
      · rw [if_pos ⟨hlength, hutf8⟩, hutf8, Option.map_some]
      · have hnone : fromUtf8 upstreamId = none :=
          if_neg fun hloop => hutf8 (if_pos hloop)
        rw [if_neg fun hboth => hutf8 hboth.2, hnone, Option.map_none]
    · rw [if_neg hlength, if_neg fun hboth => hlength hboth.1]
  refine ⟨hdatagram, abs_recordedRtt_sub_le h, abs_recordedLoss_sub_le h,
    fun x mem mem' hexec up hup => ?_⟩
  rw [hdatagram] at hexec
  split_ifs at hexec
  · exact scores_onReport hexec hup
  · rw [Prog.exec_pure, Option.some_inj] at hexec
    rw [(Prod.mk.inj hexec).2]

/-- The answer of a process with one outbound that has a sample of its uplink only. -/
def oneOutbound (path : Str) : Option Str :=
  List.lookup path
    [(ascii "outbounds[0].tag", ascii "out"),
      (ascii "outbounds[0].quality.sq_conn_stats.sample_age_ms", ascii "250"),
      (ascii "outbounds[0].quality.sq_conn_stats.uplink.rtt", ascii "1.25e1"),
      (ascii "outbounds[0].quality.sq_conn_stats.uplink.lost_packets", ascii "1"),
      (ascii "outbounds[0].quality.sq_conn_stats.uplink.sent_packets", ascii "3"),
      (ascii "outbounds[0].quality.sq_conn_stats.uplink.current_mtu", ascii "1400")]

/-- Formats that round no number and convert every text. -/
def wideFormats : Formats where
  awk := .rational
  printf := .rational
  converts _ := true
  converts_of_numValue _ _ _ _ _ := rfl

end XtpRs.Upstream
