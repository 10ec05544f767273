import XtpRs.Lib.Sequential
import XtpRs.Upstream.ScoreRange

/-!
# The score between two updates

`score_at` as a function of the atomics of an upstream and of the time. While the atomics keep their
values only the two QUIC parts depend on the time, and they decay.

## Main definitions

* `Score.mix`, `Score.combineQuic`: the score from its parts.
* `Score.uplinkPart`, `Score.downlinkPart`: the decayed score of a direction.

## Main results

* `Score.exec_scoreAt`: what `score_at` returns.
* `Score.score_decays`: without updates a score only decays.
-/

namespace XtpRs.Upstream

open Lib

namespace Score

/-- The choice of `quic_score_effective_at` between the decayed scores of the two directions. -/
def combineQuic : Option UInt32 → Option UInt32 → UInt32
  | some u, some d => (u + d) / 2
  | some u, none => u
  | none, some d => d
  | none, none => defaultScore

/-- The choice of `score_at` between the TCP score and the QUIC score. -/
def mix (tcpValid quicValid : Bool) (tcp quic qw : UInt32) : UInt32 :=
  match tcpValid, quicValid with
  | true, true => (tcp * (100 - qw) + quic * qw) / 100
  | false, true => quic
  | true, false => tcp
  | false, false => defaultScore

/-! ## Conversions -/

theorem toNat_saturatingSub (a b : UInt64) : (saturatingSub a b).toNat = a.toNat - b.toNat := by
  unfold saturatingSub
  split_ifs with h
  · exact UInt64.toNat_sub_of_le a b h
  · have hlt : a.toNat < b.toNat := UInt64.lt_iff_toNat_lt.mp (UInt64.not_le.mp h)
    exact (Nat.sub_eq_zero_of_le hlt.le).symm

/-- The mean of two scores. -/
theorem toNat_mean {a b : UInt32} (ha : a.toNat ≤ 1000) (hb : b.toNat ≤ 1000) :
    ((a + b) / 2).toNat = (a.toNat + b.toNat) / 2 := by
  have hlt : a.toNat + b.toNat < 2 ^ 32 := by omega
  rw [UInt32.toNat_div, UInt32.toNat_add, Nat.mod_eq_of_lt hlt]
  rfl

/-- The weight of the TCP part is what the QUIC part leaves of 100. -/
theorem toNat_tcpWeight {qw : UInt32} (hqw : qw.toNat ≤ 100) :
    ((100 : UInt32) - qw).toNat = 100 - qw.toNat :=
  UInt32.toNat_sub_of_le 100 qw (UInt32.le_iff_toNat_le.mpr hqw)

/-- A score times its weight. -/
theorem mul_weight_le {score weight : UInt32} (hscore : score.toNat ≤ 1000)
    (hweight : weight.toNat ≤ 100) : score.toNat * weight.toNat ≤ 100000 :=
  Nat.mul_le_mul hscore hweight

theorem toNat_mul_weight {score weight : UInt32} (hscore : score.toNat ≤ 1000)
    (hweight : weight.toNat ≤ 100) : (score * weight).toNat = score.toNat * weight.toNat := by
  have hlt : score.toNat * weight.toNat < 2 ^ 32 :=
    (mul_weight_le hscore hweight).trans_lt (by decide)
  rw [UInt32.toNat_mul, Nat.mod_eq_of_lt hlt]

/-- The mixture of two scores. -/
theorem toNat_mix {tcp quic qw : UInt32} (htcp : tcp.toNat ≤ 1000) (hquic : quic.toNat ≤ 1000)
    (hqw : qw.toNat ≤ 100) :
    (mix true true tcp quic qw).toNat =
      (tcp.toNat * (100 - qw.toNat) + quic.toNat * qw.toNat) / 100 := by
  have htw : ((100 : UInt32) - qw).toNat ≤ 100 := (toNat_tcpWeight hqw).trans_le (Nat.sub_le 100 _)
  have h1 := mul_weight_le htcp htw
  have h2 := mul_weight_le hquic hqw
  rw [mix, UInt32.toNat_div, UInt32.toNat_add, toNat_mul_weight htcp htw,
    toNat_mul_weight hquic hqw, Nat.mod_eq_of_lt (by omega), toNat_tcpWeight hqw]
  rfl

/-! ## Decay -/

section Decay

variable {now now' staleSecs lastUpdateSecs : UInt64} {score r r' : UInt32}

theorem decay_eq_none_iff :
    decay now staleSecs score lastUpdateSecs = none ↔ lastUpdateSecs = 0 := by
  simp only [decay]
  split_ifs with hzero <;> simp [hzero]

/-- Whether a direction has a score does not depend on the time. -/
theorem isSome_decay : (decay now staleSecs score lastUpdateSecs).isSome = true ↔
    0 < lastUpdateSecs := by
  rw [Option.isSome_iff_ne_none, Ne, decay_eq_none_iff]
  exact UInt64.pos_iff_ne_zero.symm

/-- A score decays linearly, down to the least one. -/
theorem toNat_decay (h : decay now staleSecs score lastUpdateSecs = some r) :
    r.toNat = max (truncU32 (score.toNat *
      (((staleSecs.toNat - (now.toNat - lastUpdateSecs.toNat) : ℕ) : ℚ) / staleSecs.toNat))).toNat
        10 := by
  simp only [decay] at h
  split_ifs at h with hzero hstale
  · obtain rfl := Option.some.inj h
    have hle := UInt64.le_iff_toNat_le.mp hstale
    rw [toNat_saturatingSub] at hle
    rw [Nat.sub_eq_zero_of_le hle, Nat.cast_zero, zero_div, mul_zero]
    rfl
  · obtain rfl := Option.some.inj h
    have hle : saturatingSub now lastUpdateSecs ≤ staleSecs :=
      UInt64.le_of_lt (UInt64.not_le.mp hstale)
    rw [toNat_max, UInt64.toNat_sub_of_le _ _ hle, toNat_saturatingSub]
    rfl

theorem minimalScore_le_decay (h : decay now staleSecs score lastUpdateSecs = some r) :
    minimalScore ≤ r := by
  rw [UInt32.le_iff_toNat_le, toNat_decay h]
  exact le_max_right _ _

theorem decay_eq_minimalScore (hstale : lastUpdateSecs.toNat + staleSecs.toNat ≤ now.toNat)
    (h : decay now staleSecs score lastUpdateSecs = some r) : r = minimalScore := by
  have hle : staleSecs.toNat ≤ now.toNat - lastUpdateSecs.toNat := by omega
  rw [← UInt32.toNat_inj, toNat_decay h, Nat.sub_eq_zero_of_le hle, Nat.cast_zero, zero_div,
    mul_zero]
  rfl

/-- Later a direction has a lower score. -/
theorem decay_antitone (hnow : now ≤ now') (h : decay now staleSecs score lastUpdateSecs = some r)
    (h' : decay now' staleSecs score lastUpdateSecs = some r') : r'.toNat ≤ r.toNat := by
  rw [toNat_decay h, toNat_decay h']
  have hle : staleSecs.toNat - (now'.toNat - lastUpdateSecs.toNat) ≤
      staleSecs.toNat - (now.toNat - lastUpdateSecs.toNat) := by
    have htime := UInt64.le_iff_toNat_le.mp hnow
    omega
  refine max_le_max_right _ (UInt32.le_iff_toNat_le.mp (truncU32_mono ?_))
  gcongr

/-- A decayed score exceeds neither the score nor the least one. -/
theorem toNat_decay_le_max (h : decay now staleSecs score lastUpdateSecs = some r) :
    r.toNat ≤ max score.toNat 10 := by
  rw [toNat_decay h]
  refine max_le_max_right _ (toNat_truncU32_le ?_)
  refine mul_le_of_le_one_right (Nat.cast_nonneg _) (div_le_one_of_le₀ ?_ (Nat.cast_nonneg _))
  exact_mod_cast Nat.sub_le _ _

/-- Up to the time of its update a score has not decayed. -/
theorem decay_of_le (hle : now ≤ lastUpdateSecs) (hstale : 0 < staleSecs.toNat)
    (hmin : minimalScore ≤ score) (h : decay now staleSecs score lastUpdateSecs = some r) :
    r = score := by
  have hlt : score.toNat ≤ UInt32.size - 1 := Nat.le_pred_of_lt score.toNat_lt
  have hne : (staleSecs.toNat : ℚ) ≠ 0 := by exact_mod_cast hstale.ne'
  have hfloor : (score.toNat : ℚ).floor = score.toNat := by
    exact_mod_cast Rat.floor_intCast (score.toNat : ℤ)
  rw [← UInt32.toNat_inj, toNat_decay h, Nat.sub_eq_zero_of_le (UInt64.le_iff_toNat_le.mp hle),
    Nat.sub_zero, div_self hne, mul_one, toNat_truncU32, hfloor, Int.toNat_natCast,
    min_eq_left hlt]
  exact max_eq_left (UInt32.le_iff_toNat_le.mp hmin)

end Decay

/-! ## The reads -/

section Reads

variable {n : ℕ} {mem : ∀ c : Cell n, c.Val} {up : Fin n} {now now' x : UInt64}

open Cell

/-- The decayed uplink score, if there is one. -/
def uplinkPart (mem : ∀ c : Cell n, c.Val) (up : Fin n) (now : UInt64) : Option UInt32 :=
  decay now (mem (u64 up .quicStaleSecs)) (mem (u32 up .quicUplinkScore))
    (mem (u64 up .quicUplinkLastUpdateSecs))

/-- The decayed downlink score, if there is one. -/
def downlinkPart (mem : ∀ c : Cell n, c.Val) (up : Fin n) (now : UInt64) : Option UInt32 :=
  decay now (mem (u64 up .quicStaleSecs)) (mem (u32 up .quicDownlinkScore))
    (mem (u64 up .quicDownlinkLastUpdateSecs))

/-- The score of an upstream. -/
def scoreOf (mem : ∀ c : Cell n, c.Val) (up : Fin n) (now : UInt64) : UInt32 :=
  mix (mem (flag up .tcpScoreInitialized))
    ((uplinkPart mem up now).isSome || (downlinkPart mem up now).isSome)
    (mem (u32 up .tcpScore)) (combineQuic (uplinkPart mem up now) (downlinkPart mem up now))
    (mem (u32 up .quicWeight))

theorem uplinkPart_le (hmem : ∀ c, InRange c (mem c)) {r : UInt32}
    (h : uplinkPart mem up now = some r) : r.toNat ≤ 1000 :=
  toNat_decay_le (hmem (u32 up .quicUplinkScore)) h

theorem downlinkPart_le (hmem : ∀ c, InRange c (mem c)) {r : UInt32}
    (h : downlinkPart mem up now = some r) : r.toNat ≤ 1000 :=
  toNat_decay_le (hmem (u32 up .quicDownlinkScore)) h

/-- The QUIC score lies below a bound that its parts and the base score keep. -/
theorem toNat_combineQuic_le {u d : Option UInt32} {k : ℕ} (hk : k ≤ 1000) (hbase : 75 ≤ k)
    (hu : ∀ r, u = some r → r.toNat ≤ k) (hd : ∀ r, d = some r → r.toNat ≤ k) :
    (combineQuic u d).toNat ≤ k := by
  match u, d with
  | none, none => exact hbase
  | some u, none => exact hu u rfl
  | none, some d => exact hd d rfl
  | some u, some d =>
    have hu' := hu u rfl
    have hd' := hd d rfl
    rw [combineQuic, toNat_mean (hu'.trans hk) (hd'.trans hk)]
    omega

theorem exec_quicScoreEffectiveAt (hmem : ∀ c, InRange c (mem c)) :
    (quicScoreEffectiveAt up now).exec x mem =
      some (combineQuic (uplinkPart mem up now) (downlinkPart mem up now), mem) := by
  have hup : ∀ r, uplinkPart mem up now = some r → r.toNat ≤ 1000 := fun _ => uplinkPart_le hmem
  have hdown : ∀ r, downlinkPart mem up now = some r → r.toNat ≤ 1000 :=
    fun _ => downlinkPart_le hmem
  simp only [quicScoreEffectiveAt, Prog.exec_bind, Prog.exec_load, Option.bind_some]
  change (match uplinkPart mem up now, downlinkPart mem up now with
    | some u, some d => do return (← Prog.add u d) / 2
    | some u, none => return u
    | none, some d => return d
    | none, none => return defaultScore : ScoreM n UInt32).exec x mem = _
  cases hu : uplinkPart mem up now with
  | none =>
    cases downlinkPart mem up now with
    | none => rfl
    | some d => rfl
  | some u =>
    cases hd : downlinkPart mem up now with
    | none => rfl
    | some d =>
      have hlt : u.toNat + d.toNat < UInt32.size := by
        have hsize : UInt32.size = 2 ^ 32 := rfl
        have := hup u hu
        have := hdown d hd
        omega
      simp only [Prog.exec_bind, Prog.exec_add hlt, Option.bind_some, Prog.exec_pure]
      rfl

/-- The QUIC score takes part exactly when a direction decays to some value. -/
theorem exec_quicValid (now : UInt64) : (quicValid up).exec x mem =
    some ((uplinkPart mem up now).isSome || (downlinkPart mem up now).isSome, mem) := by
  simp only [quicValid, Prog.exec_bind, Prog.exec_load, Option.bind_some]
  have hup : (uplinkPart mem up now).isSome =
      decide (0 < mem (u64 up .quicUplinkLastUpdateSecs)) :=
    Bool.eq_iff_iff.mpr (isSome_decay.trans decide_eq_true_iff.symm)
  have hdown : (downlinkPart mem up now).isSome =
      decide (0 < mem (u64 up .quicDownlinkLastUpdateSecs)) :=
    Bool.eq_iff_iff.mpr (isSome_decay.trans decide_eq_true_iff.symm)
  rw [hup, hdown]
  split_ifs with h
  · simp [h]
  · simp [h]

/-- What `score_at` returns. -/
theorem exec_scoreAt (hmem : ∀ c, InRange c (mem c)) :
    (scoreAt up now).exec x mem = some (scoreOf mem up now, mem) := by
  have hquic : (combineQuic (uplinkPart mem up now) (downlinkPart mem up now)).toNat ≤ 1000 :=
    toNat_combineQuic_le le_rfl (by decide) (fun _ => uplinkPart_le hmem)
      fun _ => downlinkPart_le hmem
  have htcp : (mem (u32 up .tcpScore) : UInt32).toNat ≤ 1000 := hmem (u32 up .tcpScore)
  have hqw : (mem (u32 up .quicWeight) : UInt32).toNat ≤ 100 := hmem (u32 up .quicWeight)
  simp only [scoreAt, Prog.exec_bind, Prog.exec_load, Option.bind_some,
    exec_quicScoreEffectiveAt hmem, exec_quicValid now]
  rw [Prog.exec_sub (UInt32.le_iff_toNat_le.mpr hqw), Option.bind_some, scoreOf]
  generalize combineQuic (uplinkPart mem up now) (downlinkPart mem up now) = quic at hquic ⊢
  generalize ((uplinkPart mem up now).isSome || (downlinkPart mem up now).isSome) = valid
  generalize (mem (u32 up .tcpScore) : UInt32) = tcp at htcp ⊢
  generalize (mem (u32 up .quicWeight) : UInt32) = qw at hqw ⊢
  have htw : ((100 : UInt32) - qw).toNat ≤ 100 := (toNat_tcpWeight hqw).trans_le (Nat.sub_le 100 _)
  have hsize : UInt32.size = 2 ^ 32 := rfl
  have h1 := mul_weight_le htcp htw
  have h2 := mul_weight_le hquic hqw
  have hsum : (tcp * (100 - qw)).toNat + (quic * qw).toNat < UInt32.size := by
    rw [toNat_mul_weight htcp htw, toNat_mul_weight hquic hqw]
    omega
  cases (mem (flag up .tcpScoreInitialized) : Bool) with
  | false => cases valid <;> rfl
  | true =>
    cases valid with
    | false => rfl
    | true =>
      simp only [Prog.exec_bind, Prog.exec_pure, Option.bind_some,
        Prog.exec_mul (show tcp.toNat * (100 - qw : UInt32).toNat < UInt32.size by omega),
        Prog.exec_mul (show quic.toNat * qw.toNat < UInt32.size by omega), Prog.exec_add hsum]
      rfl

/-- Lower QUIC parts give a lower QUIC score. -/
theorem combineQuic_mono {u u' d d' : Option UInt32} (hu : u'.isSome = u.isSome)
    (hd : d'.isSome = d.isSome) (hu1000 : ∀ r, u = some r → r.toNat ≤ 1000)
    (hd1000 : ∀ r, d = some r → r.toNat ≤ 1000)
    (hule : ∀ r r', u = some r → u' = some r' → r'.toNat ≤ r.toNat)
    (hdle : ∀ r r', d = some r → d' = some r' → r'.toNat ≤ r.toNat) :
    (combineQuic u' d').toNat ≤ (combineQuic u d).toNat := by
  match u, u', d, d' with
  | none, none, none, none => exact le_rfl
  | some r, some r', none, none => exact hule r r' rfl rfl
  | none, none, some r, some r' => exact hdle r r' rfl rfl
  | some u, some u', some d, some d' =>
    have hu'u := hule u u' rfl rfl
    have hd'd := hdle d d' rfl rfl
    have hu' := hu1000 u rfl
    have hd' := hd1000 d rfl
    rw [combineQuic, combineQuic, toNat_mean (hu'u.trans hu') (hd'd.trans hd'), toNat_mean hu' hd']
    omega

/-- A lower QUIC score gives a lower score. -/
theorem mix_mono {tcpValid quicValid : Bool} {tcp quic quic' qw : UInt32}
    (htcp : tcp.toNat ≤ 1000) (hquic : quic.toNat ≤ 1000) (hqw : qw.toNat ≤ 100)
    (hle : quic'.toNat ≤ quic.toNat) :
    (mix tcpValid quicValid tcp quic' qw).toNat ≤ (mix tcpValid quicValid tcp quic qw).toNat := by
  match tcpValid, quicValid with
  | true, true =>
    rw [toNat_mix htcp (hle.trans hquic) hqw, toNat_mix htcp hquic hqw]
    gcongr
  | false, true => exact hle
  | true, false => exact le_rfl
  | false, false => exact le_rfl

/-- Later an upstream has a lower score. -/
theorem scoreOf_antitone (hmem : ∀ c, InRange c (mem c)) (hnow : now ≤ now') :
    (scoreOf mem up now').toNat ≤ (scoreOf mem up now).toNat := by
  have hup : (uplinkPart mem up now').isSome = (uplinkPart mem up now).isSome :=
    Bool.eq_iff_iff.mpr (isSome_decay.trans isSome_decay.symm)
  have hdown : (downlinkPart mem up now').isSome = (downlinkPart mem up now).isSome :=
    Bool.eq_iff_iff.mpr (isSome_decay.trans isSome_decay.symm)
  have hquic : (combineQuic (uplinkPart mem up now) (downlinkPart mem up now)).toNat ≤ 1000 :=
    toNat_combineQuic_le le_rfl (by decide) (fun _ => uplinkPart_le hmem)
      fun _ => downlinkPart_le hmem
  rw [scoreOf, scoreOf, hup, hdown]
  refine mix_mono (hmem (u32 up .tcpScore)) hquic (hmem (u32 up .quicWeight)) ?_
  exact combineQuic_mono hup hdown (fun _ => uplinkPart_le hmem) (fun _ => downlinkPart_le hmem)
    (fun _ _ => decay_antitone hnow) fun _ _ => decay_antitone hnow

end Reads

section Reachable

variable {ups : List Upstream} {s : Calls ups}

/-- The atomics are in range in every state reached. -/
theorem inRange_of_reachable (hups : ∀ up ∈ ups, up.Configured)
    (hs : Reachable (Calls.step ups) (Calls.start ups) s) (c : Cell ups.length) :
    InRange c (s.mem c) := by
  have hstart : (Calls.start ups).Inv InRange Call.Post :=
    ⟨inRange_initial hups, by simp [Calls.start]⟩
  exact (Pool.inv_of_reachable (safe_body hups) hstart hs).mem c

/-- **Without updates a score only decays.** In every state that calls on configured upstreams
reach, `score_at` returns at a later time no more than at an earlier one. Each direction with a
timestamp decays to a value that is never below 10, and is 10 once the time limit has passed. The
QUIC score takes part in the mixture exactly when one of the directions decays to some value. -/
theorem score_decays (hups : ∀ up ∈ ups, up.Configured)
    (hs : Reachable (Calls.step ups) (Calls.start ups) s) (up : Fin ups.length) (x : UInt64) :
    (∀ t₁ t₂, t₁ ≤ t₂ → ∃ score₁ score₂,
      (scoreAt up t₁).exec x s.mem = some (score₁, s.mem) ∧
      (scoreAt up t₂).exec x s.mem = some (score₂, s.mem) ∧ score₂ ≤ score₁) ∧
    (∀ now (last : UInt64) part,
      (last, part) ∈ [(s.mem (.u64 up .quicUplinkLastUpdateSecs), uplinkPart s.mem up now),
        (s.mem (.u64 up .quicDownlinkLastUpdateSecs), downlinkPart s.mem up now)] → last ≠ 0 →
      ∃ r, part = some r ∧ 10 ≤ r ∧
        (last.toNat + (s.mem (.u64 up .quicStaleSecs) : UInt64).toNat ≤ now.toNat → r = 10)) ∧
    ∀ now, ∃ valid, (quicValid up).exec x s.mem = some (valid, s.mem) ∧
      (valid = true ↔ (uplinkPart s.mem up now).isSome = true ∨
        (downlinkPart s.mem up now).isSome = true) := by
  have hmem := inRange_of_reachable hups hs
  refine ⟨fun t₁ t₂ h => ?_, fun now last part hpart hlast => ?_, fun now => ?_⟩
  · exact ⟨_, _, exec_scoreAt hmem, exec_scoreAt hmem,
      UInt32.le_iff_toNat_le.mpr (scoreOf_antitone hmem h)⟩
  · obtain ⟨score, rfl⟩ : ∃ score,
        part = decay now (s.mem (.u64 up .quicStaleSecs)) score last := by
      rcases List.mem_pair.mp hpart with h | h
      · obtain ⟨rfl, rfl⟩ := Prod.mk.inj h
        exact ⟨_, rfl⟩
      · obtain ⟨rfl, rfl⟩ := Prod.mk.inj h
        exact ⟨_, rfl⟩
    cases hr : decay now (s.mem (.u64 up .quicStaleSecs)) score last with
    | none => exact absurd (decay_eq_none_iff.mp hr) hlast
    | some r => exact ⟨r, rfl, minimalScore_le_decay hr, fun h => decay_eq_minimalScore h hr⟩
  · exact ⟨_, exec_quicValid now, Bool.or_eq_true_iff⟩

/-- The first call: a report for an upstream, which scores `raw`, at the time 100. -/
def reported {n : ℕ} (up : Fin n) (raw : UInt32) : List (Pool.Action UInt64 (Call n)) :=
  .call (.updateUplinkScore up (some raw)) :: List.replicate 5 (.advance 0 100)

theorem configured_loneUpstreamBuilt :
    ∀ up ∈ [Config.loneUpstreamBuilt], up.Configured := by
  intro up hup
  obtain rfl := List.mem_singleton.mp hup
  exact ⟨⟨20000, rfl, by norm_num⟩, by decide, by decide⟩

/-- From 302 at the time of the report the score decays to 10 in 180 seconds. -/
theorem score_decays_reported :
    ∃ s, Reachable (Calls.step [Config.loneUpstreamBuilt]) (Calls.start [Config.loneUpstreamBuilt])
        s ∧ (scoreAt 0 100).exec 0 s.mem = some (302, s.mem) ∧
      ∃ score, (scoreAt 0 280).exec 0 s.mem = some (score, s.mem) ∧ score ≤ 302 := by
  obtain ⟨s, hs, hscore⟩ : ∃ s, Reachable (Calls.step [Config.loneUpstreamBuilt])
      (Calls.start [Config.loneUpstreamBuilt]) s ∧ scoreOf s.mem 0 100 = 302 :=
    exists_steps_of_run (l := reported 0 400) (fun _ _ _ => trivial) (by decide +kernel)
  have hdecays := score_decays configured_loneUpstreamBuilt hs 0 0
  obtain ⟨score₁, score₂, h₁, h₂, hle⟩ := hdecays.1 100 280 (by decide)
  have hat : (scoreAt 0 100).exec 0 s.mem = some (302, s.mem) :=
    hscore ▸ exec_scoreAt (inRange_of_reachable configured_loneUpstreamBuilt hs)
  obtain rfl : score₁ = 302 := congrArg Prod.fst (Option.some.inj (h₁.symm.trans hat))
  exact ⟨s, hs, hat, score₂, h₂, hle⟩

end Reachable

end Score

end XtpRs.Upstream
