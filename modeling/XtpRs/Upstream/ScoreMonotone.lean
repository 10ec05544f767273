import XtpRs.Upstream.ScoreRange

/-!
# Better links have better scores

The absolute scores of `src/upstream.rs` are piecewise. `calc_throughput_score` is the integer part
of a function of the rate that is linear between a few rates; the pieces join, so it is monotone
(`throughputPoints_mono`). `calc_quic_score` subtracts three penalties, each a step function of one
measurement.

## Main definitions

* `throughputPoints`: the score of a rate before it is truncated.
* `calcQuicScore`: the score of a probe report.

## Main results

* `toNat_throughputScore`: the score of a rate is the integer part of its points.
* `lossPenalty_mono`, `rttPenalty_mono`, `mtuPenalty_anti`: each penalty is monotone.
* `absolute_scores_monotone`: more traffic in the same time has no lower score, nor has a link that
  is better in all three measurements.
-/

namespace XtpRs.Upstream

/-! ### Throughput -/

/-- The score of a rate in MiB per second, as a rational number. -/
def throughputPoints (m : ℚ) : ℚ :=
  if 50 ≤ m then 1000
  else if 10 ≤ m then 800 + (m - 10) / 40 * 200
  else if 5 ≤ m then 600 + (m - 5) / 5 * 200
  else if 1 ≤ m then 300 + (m - 1) / 4 * 300
  else if 1 / 10 ≤ m then 100 + (m - 1 / 10) / (9 / 10) * 200
  else m / (1 / 10) * 100

/-- Every piece ends where the next one begins. -/
theorem throughputPoints_mono {m m' : ℚ} (h : m ≤ m') :
    throughputPoints m ≤ throughputPoints m' := by
  unfold throughputPoints
  split_ifs <;> linarith

theorem throughputPoints_le (m : ℚ) : throughputPoints m ≤ 1000 := by
  unfold throughputPoints
  split_ifs <;> linarith

/-- A rate's points fit in `u32`, so only their fraction is lost. -/
theorem toNat_truncU32_eq_floor {q : ℚ} (hle : q ≤ 1000) : (truncU32 q).toNat = ⌊q⌋₊ := by
  have hfloor : ⌊q⌋₊ ≤ 1000 := Nat.floor_le_of_le (by exact_mod_cast hle)
  rw [toNat_truncU32]
  exact min_eq_left (hfloor.trans (by decide))

/-- A truncated part on top of a number of points. -/
theorem toNat_add_truncU32 (k : UInt32) {q : ℚ} (hq : 0 ≤ q) (hle : k.toNat + q ≤ 1000) :
    (k + truncU32 q).toNat = ⌊k.toNat + q⌋₊ := by
  have hq1000 : q ≤ 1000 := le_trans (le_add_of_nonneg_left (Nat.cast_nonneg _)) hle
  have hsum : ⌊k.toNat + q⌋₊ = ⌊q⌋₊ + k.toNat := by
    rw [add_comm, Nat.floor_add_natCast hq]
  have hfloor : ⌊k.toNat + q⌋₊ ≤ 1000 := Nat.floor_le_of_le (by exact_mod_cast hle)
  have hlt : k.toNat + ⌊q⌋₊ < 2 ^ 32 := by omega
  rw [UInt32.toNat_add, toNat_truncU32_eq_floor hq1000, Nat.mod_eq_of_lt hlt, hsum, add_comm]

/-- The score of a rate is the integer part of its points. -/
theorem calcThroughputScore_eq {totalBytes : UInt64} (hbytes : 1024 * 16 ≤ totalBytes) {secs : ℚ}
    (hsecs : 0 < secs) :
    ∃ score, calcThroughputScore totalBytes secs = some score ∧
      score.toNat = ⌊throughputPoints (totalBytes.toNat / secs / 1024 / 1024)⌋₊ := by
  have hm : 0 ≤ (totalBytes.toNat : ℚ) / secs / 1024 / 1024 := by positivity
  rw [calcThroughputScore, if_neg (UInt64.not_lt.mpr hbytes), if_neg (not_le.mpr hsecs)]
  refine ⟨_, rfl, ?_⟩
  generalize (totalBytes.toNat : ℚ) / secs / 1024 / 1024 = m at hm
  have hpoints := throughputPoints_le m
  have hfloor : ⌊throughputPoints m⌋₊ ≤ 1000 := Nat.floor_le_of_le (by exact_mod_cast hpoints)
  have hmin {score : UInt32} (h : score.toNat = ⌊throughputPoints m⌋₊) :
      (min score 1000).toNat = ⌊throughputPoints m⌋₊ := by
    have hle : score ≤ 1000 := UInt32.le_iff_toNat_le.mpr (h ▸ hfloor)
    rw [show min score 1000 = score from if_pos hle, h]
  refine hmin ?_
  unfold throughputPoints at hpoints ⊢
  split_ifs at hpoints ⊢ with h50 h10 h5 h1 h01
  · exact (Nat.floor_ofNat 1000).symm
  · exact toNat_add_truncU32 800 (by linarith) hpoints
  · exact toNat_add_truncU32 600 (by linarith) hpoints
  · exact toNat_add_truncU32 300 (by linarith) hpoints
  · exact toNat_add_truncU32 100 (by linarith) hpoints
  · exact toNat_truncU32_eq_floor hpoints

theorem calcThroughputScore_eq_none {totalBytes : UInt64} {secs : ℚ} (hsecs : secs ≤ 0) :
    calcThroughputScore totalBytes secs = none := by
  rw [calcThroughputScore, if_pos hsecs, ite_self]

/-- More traffic in the same time has no lower score. -/
theorem calcThroughputScore_mono {a b : UInt64} (ha : 1024 * 16 ≤ a) (hab : a ≤ b) {secs : ℚ}
    (hsecs : 0 < secs) :
    ∃ s t, calcThroughputScore a secs = some s ∧ calcThroughputScore b secs = some t ∧ s ≤ t ∧
      t ≤ 1000 := by
  obtain ⟨s, hs, hspoints⟩ := calcThroughputScore_eq ha hsecs
  obtain ⟨t, ht, htpoints⟩ := calcThroughputScore_eq (UInt64.le_trans ha hab) hsecs
  have hbytes : (a.toNat : ℚ) ≤ b.toNat := by exact_mod_cast UInt64.le_iff_toNat_le.mp hab
  have hrate : (a.toNat : ℚ) / secs / 1024 / 1024 ≤ b.toNat / secs / 1024 / 1024 := by gcongr
  refine ⟨s, t, hs, ht, ?_, UInt32.le_iff_toNat_le.mpr (toNat_calcThroughputScore_le ht)⟩
  rw [UInt32.le_iff_toNat_le, hspoints, htpoints]
  exact Nat.floor_mono (throughputPoints_mono hrate)

/-! ### Probe reports -/

/-- `f64::round`: to the nearest integer, away from zero half way between two. -/
def roundF64 (q : ℚ) : ℚ :=
  if 0 ≤ q then ⌊q + 1 / 2⌋ else ⌈q - 1 / 2⌉

/-- `a.saturating_sub(b)`. -/
def saturatingSub32 (a b : UInt32) : UInt32 :=
  if b ≤ a then a - b else 0

/-- `loss_penalty` of `calc_quic_score`. -/
def lossPenalty (lossRate : ℚ) : UInt32 :=
  let percent := truncU32 (roundF64 (lossRate * 100))
  if percent = 0 then 0
  else if percent ≤ 2 then 60
  else if percent ≤ 5 then 200
  else if percent ≤ 10 then 500
  else if percent ≤ 20 then 750
  else 900

/-- `rtt_penalty` of `calc_quic_score`. -/
def rttPenalty (rttMs : ℚ) : UInt32 :=
  let millis := truncU32 rttMs
  if millis ≤ 80 then 0
  else if millis ≤ 150 then 40
  else if millis ≤ 250 then 100
  else if millis ≤ 400 then 180
  else 300

/-- `mtu_penalty` of `calc_quic_score`. -/
def mtuPenalty (mtu : UInt16) : UInt32 :=
  if 1400 ≤ mtu then 0
  else if 1300 ≤ mtu then 60
  else if 1280 ≤ mtu then 120
  else if 1200 ≤ mtu then 250
  else 450

/-- `calc_quic_score`. -/
def calcQuicScore (rttMs lossRate : F64) (mtu : UInt16) : Option UInt32 :=
  match rttMs, lossRate with
  | .finite rttMs, .finite lossRate =>
    if rttMs < 0 ∨ lossRate < 0 then none
    else
      let score := saturatingSub32 (saturatingSub32 (saturatingSub32 1000 (lossPenalty lossRate))
        (rttPenalty rttMs)) (mtuPenalty mtu)
      some (max score 50)
  | _, _ => none

theorem roundF64_mono {q r : ℚ} (hq : 0 ≤ q) (h : q ≤ r) : roundF64 q ≤ roundF64 r := by
  rw [roundF64, roundF64, if_pos hq, if_pos (hq.trans h)]
  exact_mod_cast Int.floor_mono (by linarith)

theorem lossPenalty_mono {loss loss' : ℚ} (hloss : 0 ≤ loss) (h : loss ≤ loss') :
    lossPenalty loss ≤ lossPenalty loss' := by
  have hpercent : truncU32 (roundF64 (loss * 100)) ≤ truncU32 (roundF64 (loss' * 100)) :=
    truncU32_mono (roundF64_mono (by linarith) (by linarith))
  simp only [lossPenalty]
  generalize truncU32 (roundF64 (loss * 100)) = p at hpercent
  generalize truncU32 (roundF64 (loss' * 100)) = p' at hpercent
  simp only [UInt32.le_iff_toNat_le, ← UInt32.toNat_inj, UInt32.toNat_ofNat] at hpercent ⊢
  split_ifs <;> first | decide | omega

theorem rttPenalty_mono {rtt rtt' : ℚ} (h : rtt ≤ rtt') : rttPenalty rtt ≤ rttPenalty rtt' := by
  have hmillis := truncU32_mono h
  simp only [rttPenalty]
  generalize truncU32 rtt = m at hmillis
  generalize truncU32 rtt' = m' at hmillis
  simp only [UInt32.le_iff_toNat_le, UInt32.toNat_ofNat] at hmillis ⊢
  split_ifs <;> first | decide | omega

theorem mtuPenalty_anti {mtu mtu' : UInt16} (h : mtu' ≤ mtu) :
    mtuPenalty mtu ≤ mtuPenalty mtu' := by
  simp only [mtuPenalty]
  simp only [UInt16.le_iff_toNat_le, UInt16.toNat_ofNat] at h ⊢
  split_ifs <;> first | decide | omega

theorem toNat_saturatingSub32 (a b : UInt32) :
    (saturatingSub32 a b).toNat = a.toNat - b.toNat := by
  unfold saturatingSub32
  split_ifs with h
  · exact UInt32.toNat_sub_of_le _ _ h
  · have hlt : a.toNat < b.toNat := UInt32.lt_iff_toNat_lt.mp (UInt32.not_le.mp h)
    rw [Nat.sub_eq_zero_of_le hlt.le]
    rfl

/-- Greater penalties leave no better score. -/
theorem saturatingSub32_mono {a a' b b' : UInt32} (ha : a' ≤ a) (hb : b ≤ b') :
    saturatingSub32 a' b' ≤ saturatingSub32 a b := by
  rw [UInt32.le_iff_toNat_le] at ha hb ⊢
  rw [toNat_saturatingSub32, toNat_saturatingSub32]
  omega

/-- A probe report of a link that is no better in any of the three has no better score. -/
theorem calcQuicScore_anti {rtt rtt' loss loss' : ℚ} {mtu mtu' : UInt16} (hrtt0 : 0 ≤ rtt)
    (hloss0 : 0 ≤ loss) (hrtt : rtt ≤ rtt') (hloss : loss ≤ loss') (hmtu : mtu' ≤ mtu) :
    ∃ s t, calcQuicScore (.finite rtt) (.finite loss) mtu = some s ∧
      calcQuicScore (.finite rtt') (.finite loss') mtu' = some t ∧ t ≤ s ∧ 50 ≤ t ∧ s ≤ 1000 := by
  have hvalid : ¬(rtt < 0 ∨ loss < 0) := not_or.mpr ⟨not_lt.mpr hrtt0, not_lt.mpr hloss0⟩
  have hvalid' : ¬(rtt' < 0 ∨ loss' < 0) :=
    not_or.mpr ⟨not_lt.mpr (hrtt0.trans hrtt), not_lt.mpr (hloss0.trans hloss)⟩
  refine ⟨_, _, if_neg hvalid, if_neg hvalid', ?_, ?_, ?_⟩
  · have hle := saturatingSub32_mono (saturatingSub32_mono
      (saturatingSub32_mono (UInt32.le_refl 1000) (lossPenalty_mono hloss0 hloss))
      (rttPenalty_mono hrtt)) (mtuPenalty_anti hmtu)
    rw [UInt32.le_iff_toNat_le, toNat_max, toNat_max]
    exact max_le_max_right _ (UInt32.le_iff_toNat_le.mp hle)
  · rw [UInt32.le_iff_toNat_le, toNat_max]
    exact le_max_right _ _
  · rw [UInt32.le_iff_toNat_le, toNat_max, toNat_saturatingSub32, toNat_saturatingSub32,
      toNat_saturatingSub32]
    have h1000 : UInt32.toNat 1000 = 1000 := rfl
    have h50 : UInt32.toNat 50 = 50 := rfl
    omega

/-- More traffic in the same time has no lower score, and the score is at most 1000; without a
duration there is none. A link with no greater round-trip time and loss and no smaller MTU has no
lower score, and the scores are between 50 and 1000. -/
theorem absolute_scores_monotone :
    (∀ (a b : UInt64) (secs : ℚ), 1024 * 16 ≤ a → a ≤ b →
      (secs ≤ 0 ∧ calcThroughputScore a secs = none ∧ calcThroughputScore b secs = none) ∨
      (0 < secs ∧ ∃ s t, calcThroughputScore a secs = some s ∧
        calcThroughputScore b secs = some t ∧ s ≤ t ∧ t ≤ 1000)) ∧
    ∀ (rtt rtt' loss loss' : ℚ) (mtu mtu' : UInt16), 0 ≤ rtt → 0 ≤ loss → rtt ≤ rtt' →
      loss ≤ loss' → mtu' ≤ mtu →
      ∃ s t, calcQuicScore (.finite rtt) (.finite loss) mtu = some s ∧
        calcQuicScore (.finite rtt') (.finite loss') mtu' = some t ∧ t ≤ s ∧ 50 ≤ t ∧
        s ≤ 1000 := by
  refine ⟨fun a b secs ha hab => ?_, fun rtt rtt' loss loss' mtu mtu' => calcQuicScore_anti⟩
  obtain hsecs | hsecs := le_or_gt secs 0
  · exact .inl ⟨hsecs, calcThroughputScore_eq_none hsecs, calcThroughputScore_eq_none hsecs⟩
  · exact .inr ⟨hsecs, calcThroughputScore_mono ha hab hsecs⟩

end XtpRs.Upstream
