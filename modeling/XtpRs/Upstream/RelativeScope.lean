import XtpRs.Upstream.RelativeTick

/-!
# The scope of the relative scores

`run_relative_score_task` measures every upstream against the greatest measurement of all upstreams
of the set, whatever their groups. Two runs of the task side by side, on measurements that agree for
the upstreams which share a group with a given one, show what this one learns of the others.

## Main definitions

* `Score.SharesGroup`: an upstream is in a group of another one.
* `Score.TickInput`, `Score.relativeStep`: a tick of the task, after what others have written.
* `Score.Agree`, `Score.SameGreatest`: conditions on a tick of both runs.

## Main results

* `Score.relativeScores_scope`: when the measurements of other groups do not matter.
-/

namespace XtpRs.Upstream

open Lib

namespace Score

open Cell

variable {n : ℕ}

/-- The other upstream is the same one, or is in one of its groups. -/
def SharesGroup (ups : List Upstream) (up other : Fin ups.length) : Prop :=
  other = up ∨ ∃ group ∈ (ups.get up).groups, group ∈ (ups.get other).groups

/-- The reading of the clock at a tick, and what has been written since the one before it: values in
range to any atomics. -/
structure TickInput (n : ℕ) where
  now : UInt64
  writes : ∀ c : Cell n, Option c.Val
  inRange : ∀ c v, writes c = some v → InRange c v

/-- The atomics when the tick begins. -/
def TickInput.apply (i : TickInput n) (mem : ∀ c : Cell n, c.Val) : ∀ c : Cell n, c.Val :=
  fun c => (i.writes c).getD (mem c)

/-- A tick of `run_relative_score_task`. -/
def relativeStep (staleSecs : UInt64) (s : Tasks n) (i : TickInput n) : Option (Tasks n) := do
  let (emas, mem) ← (relativeTick staleSecs s.maxRateEma s.maxQEma).exec i.now (i.apply s.mem)
  return { mem, maxRateEma := emas.1, maxQEma := emas.2 }

/-- The two runs have the same clock, and the same is written to every upstream that shares a group
with the given one. -/
structure Agree (ups : List Upstream) (up : Fin ups.length)
    (i : TickInput ups.length × TickInput ups.length) : Prop where
  now : i.1.now = i.2.now
  writes : ∀ c : Cell ups.length, SharesGroup ups up c.owner → i.1.writes c = i.2.writes c

/-- The greatest fresh rate and the greatest fresh probe quality of all upstreams. -/
def greatest (mem : ∀ c : Cell n, c.Val) (now staleSecs : UInt64) : ℚ × ℚ :=
  (maxRate ((List.finRange n).map (snapOf mem now staleSecs)),
    maxQ ((List.finRange n).map (snapOf mem now staleSecs)))

/-- The greatest fresh measurements of all upstreams are the same in both runs. -/
def SameGreatest (staleSecs : UInt64) (s : Tasks n × Tasks n) (i : TickInput n × TickInput n) :
    Prop :=
  greatest (i.1.apply s.1.mem) i.1.now staleSecs = greatest (i.2.apply s.2.mem) i.2.now staleSecs

/-! ## The greatest of some measurements -/

section FoldMax

variable {α : Type} {p : α → Bool} {f : α → ℚ} {l : List α} {m M : ℚ}

theorem le_foldl_max : m ≤ l.foldl (fun m a => if p a then max m (f a) else m) m := by
  induction l generalizing m with
  | nil => exact le_rfl
  | cons a l ih =>
    refine le_trans ?_ ih
    dsimp only
    split_ifs
    · exact le_max_left _ _
    · exact le_rfl

theorem le_foldl_max_of_mem {a : α} (ha : a ∈ l) (hp : p a = true) :
    f a ≤ l.foldl (fun m a => if p a then max m (f a) else m) m := by
  induction l generalizing m with
  | nil => cases ha
  | cons b l ih =>
    rcases List.mem_cons.mp ha with rfl | ha
    · rw [List.foldl_cons, if_pos hp]
      exact (le_max_right _ _).trans le_foldl_max
    · exact ih ha

theorem foldl_max_le (hm : m ≤ M) (h : ∀ a ∈ l, p a = true → f a ≤ M) :
    l.foldl (fun m a => if p a then max m (f a) else m) m ≤ M := by
  induction l generalizing m with
  | nil => exact hm
  | cons a l ih =>
    refine ih ?_ fun b hb => h b (List.mem_cons_of_mem a hb)
    dsimp only
    split_ifs with hp
    · exact max_le hm (h a List.mem_cons_self hp)
    · exact hm

/-- A fresh measurement that no other one exceeds is the greatest. -/
theorem foldl_max_eq {a : α} (ha : a ∈ l) (hp : p a = true) (hm : m ≤ f a)
    (h : ∀ b ∈ l, p b = true → f b ≤ f a) :
    l.foldl (fun m a => if p a then max m (f a) else m) m = f a :=
  le_antisymm (foldl_max_le hm h) (le_foldl_max_of_mem ha hp)

/-- Without fresh measurements the start is the greatest. -/
theorem foldl_max_of_none (h : ∀ a ∈ l, p a = false) :
    l.foldl (fun m a => if p a then max m (f a) else m) m = m :=
  le_antisymm (foldl_max_le le_rfl fun a ha hp => by simp [h a ha] at hp) le_foldl_max

end FoldMax

/-! ## One tick -/

variable {staleSecs : UInt64} {s t : Tasks n} {i : TickInput n} {up : Fin n}

theorem TickInput.inRange_apply (i : TickInput n) {mem : ∀ c : Cell n, c.Val}
    (hmem : ∀ c, InRange c (mem c)) (c : Cell n) : InRange c (i.apply mem c) := by
  unfold TickInput.apply
  cases hw : i.writes c with
  | none => exact hmem c
  | some v => exact i.inRange c v hw

/-- What a tick of the task does. -/
theorem relativeStep_spec (hs : ∀ c, InRange c (s.mem c))
    (h : relativeStep staleSecs s i = some t) :
    (∀ c, InRange c (t.mem c)) ∧
    t.maxRateEma = emaOfMax s.maxRateEma (greatest (i.apply s.mem) i.now staleSecs).1 ∧
    t.maxQEma = emaOfMax s.maxQEma (greatest (i.apply s.mem) i.now staleSecs).2 ∧
    (∀ up, scores t.mem up = (scores (i.apply s.mem) up).after t.maxRateEma t.maxQEma
      (snapOf (i.apply s.mem) i.now staleSecs up)) ∧
    ∀ c, (∀ up, c ∉ scoreCells up) → t.mem c = i.apply s.mem c := by
  have hmem := i.inRange_apply hs
  obtain ⟨mem, hexec, hscores, hrest⟩ := exec_relativeTick (i.apply s.mem) i.now staleSecs
    s.maxRateEma s.maxQEma fun up => hmem (u32 up .tcpScore)
  have hrange : ∀ c, InRange c (mem c) := by
    obtain ⟨_, mem', hexec', -, hrange⟩ :=
      (safe_relativeTick staleSecs s.maxRateEma s.maxQEma).exec hmem i.now
    obtain rfl : mem = mem' := congrArg Prod.snd (Option.some.inj (hexec.symm.trans hexec'))
    exact hrange
  rw [relativeStep, hexec] at h
  obtain rfl := Option.some.inj h
  exact ⟨hrange, rfl, rfl, hscores, hrest⟩

/-- A tick never faults. -/
theorem exists_relativeStep (staleSecs : UInt64) (hs : ∀ c, InRange c (s.mem c))
    (i : TickInput n) :
    ∃ t, relativeStep staleSecs s i = some t := by
  obtain ⟨emas, mem, hexec, -⟩ :=
    (safe_relativeTick staleSecs s.maxRateEma s.maxQEma).exec (i.inRange_apply hs) i.now
  rw [relativeStep, hexec]
  exact ⟨_, rfl⟩

/-- The measurements of an upstream are read from its own atomics. -/
theorem snapOf_congr {mem mem' : ∀ c : Cell n, c.Val} (h : ∀ c : Cell n, c.owner = up →
    mem c = mem' c) (now staleSecs : UInt64) :
    snapOf mem now staleSecs up = snapOf mem' now staleSecs up := by
  simp only [snapOf, h (u64 up .throughputUpdatedSecs) rfl, h (u64 up .probeQualityUpdatedSecs) rfl,
    h (f64 up .throughputRateMibs) rfl, h (f64 up .probeQuality) rfl]

theorem eq_of_scores_eq {mem mem' : ∀ c : Cell n, c.Val} (h : scores mem up = scores mem' up)
    {c : Cell n} (hc : c ∈ scoreCells up) : mem c = mem' c := by
  simp only [scoreCells, List.mem_cons, List.not_mem_nil, or_false] at hc
  rcases hc with rfl | rfl | rfl | rfl
  · exact congrArg Scores.tcp h
  · exact congrArg Scores.initialized h
  · exact congrArg Scores.uplink h
  · exact congrArg Scores.downlink h

/-! ## Two runs -/

/-- Two runs look the same to an upstream: the averages and all its own atomics agree. -/
structure SameView (up : Fin n) (s : Tasks n × Tasks n) : Prop where
  inRange₁ : ∀ c, InRange c (s.1.mem c)
  inRange₂ : ∀ c, InRange c (s.2.mem c)
  maxRateEma : s.1.maxRateEma = s.2.maxRateEma
  maxQEma : s.1.maxQEma = s.2.maxQEma
  cells : ∀ c : Cell n, c.owner = up → s.1.mem c = s.2.mem c

section TwoRuns

variable {ups : List Upstream} {staleSecs : UInt64} {up : Fin ups.length}
  {s t : Tasks ups.length × Tasks ups.length} {i : TickInput ups.length × TickInput ups.length}

/-- A tick with the same greatest measurements in both runs keeps them the same to the upstream. -/
theorem SameView.step (hs : SameView up s) (hagree : Agree ups up i)
    (hgreatest : SameGreatest staleSecs s i) (h : pairStep (relativeStep staleSecs) s i = some t) :
    SameView up t := by
  obtain ⟨h₁, h₂⟩ := pairStep_eq_some_iff.mp h
  obtain ⟨hrange₁, hrate₁, hq₁, hscores₁, hrest₁⟩ := relativeStep_spec hs.inRange₁ h₁
  obtain ⟨hrange₂, hrate₂, hq₂, hscores₂, hrest₂⟩ := relativeStep_spec hs.inRange₂ h₂
  have hrate : t.1.maxRateEma = t.2.maxRateEma := by rw [hrate₁, hrate₂, hs.maxRateEma, hgreatest]
  have hq : t.1.maxQEma = t.2.maxQEma := by rw [hq₁, hq₂, hs.maxQEma, hgreatest]
  -- when the tick begins the atomics of the upstream agree
  have hbefore : ∀ c : Cell ups.length, c.owner = up →
      i.1.apply s.1.mem c = i.2.apply s.2.mem c := by
    intro c hc
    rw [TickInput.apply, TickInput.apply, hagree.writes c (.inl hc), hs.cells c hc]
  have hscores : scores t.1.mem up = scores t.2.mem up := by
    have hscoresBefore : scores (i.1.apply s.1.mem) up = scores (i.2.apply s.2.mem) up :=
      scores_congr fun c hc => hbefore c (owner_of_mem_scoreCells hc)
    rw [hscores₁, hscores₂, hrate, hq, hscoresBefore, hagree.now,
      snapOf_congr hbefore i.2.now staleSecs]
  refine ⟨hrange₁, hrange₂, hrate, hq, fun c hc => ?_⟩
  by_cases hscore : c ∈ scoreCells up
  · exact eq_of_scores_eq hscores hscore
  · have hnone : ∀ other, c ∉ scoreCells other := fun other hother =>
      hscore ((owner_of_mem_scoreCells hother).symm.trans hc ▸ hother)
    rw [hrest₁ c hnone, hrest₂ c hnone, hbefore c hc]

theorem sameView_start (hups : ∀ up ∈ ups, up.Configured) :
    SameView up (Tasks.start ups, Tasks.start ups) :=
  ⟨inRange_initial hups, inRange_initial hups, rfl, rfl, fun _ _ => rfl⟩

/-- With a time limit of zero nothing is ever fresh. -/
theorem greatest_of_zero (mem : ∀ c : Cell n, c.Val) (now : UInt64) :
    greatest mem now 0 = (0, 0) := by
  refine Prod.ext (foldl_max_of_none fun snap hsnap => ?_) (foldl_max_of_none fun snap hsnap => ?_)
  · obtain ⟨up, -, rfl⟩ := List.mem_map.mp hsnap
    simp [snapOf]
  · obtain ⟨up, -, rfl⟩ := List.mem_map.mp hsnap
    simp [snapOf]

/-- When all upstreams share a group with the given one, both runs are one run. -/
theorem eq_of_sharesGroup (hall : ∀ other, SharesGroup ups up other) (hs : s.1 = s.2)
    (hagree : Agree ups up i) (h : pairStep (relativeStep staleSecs) s i = some t) : t.1 = t.2 := by
  obtain ⟨h₁, h₂⟩ := pairStep_eq_some_iff.mp h
  have happly : i.1.apply s.1.mem = i.2.apply s.2.mem := by
    funext c
    rw [TickInput.apply, TickInput.apply, hagree.writes c (hall c.owner), hs]
  have hsame : relativeStep staleSecs s.1 i.1 = relativeStep staleSecs s.2 i.2 := by
    rw [relativeStep, relativeStep, happly, hagree.now, hs]
  exact Option.some.inj (h₁.symm.trans (hsame.trans h₂))

/-- A tick at the time 1 that finds a rate of 1 for one upstream and another rate for a second
one. -/
def twoRates (up other : Fin n) (rate : ℚ) : TickInput n where
  now := 1
  writes
    | .f64 c .throughputRateMibs =>
      if c = up then some (1 : ℚ) else if c = other then some rate else none
    | .u64 c .throughputUpdatedSecs => if c = up ∨ c = other then some (1 : UInt64) else none
    | _ => none
  inRange := by
    intro c v h
    cases c with
    | f64 => exact trivial
    | u64 c field => cases field <;> first | exact trivial | cases h
    | u32 => cases h
    | flag => cases h

/-- The first tick finds a fresh rate for the two upstreams and for no other one. -/
theorem snapOf_twoRates (hstale : 0 < staleSecs) (up other c : Fin ups.length) (rate : ℚ) :
    let snap := snapOf ((twoRates up other rate).apply (initial ups)) 1 staleSecs c
    (snap.hasRate = true ↔ c = up ∨ c = other) ∧
      snap.rate = if c = up then 1 else if c = other then rate else 0 := by
  have hself : saturatingSub 1 1 < staleSecs := hstale
  by_cases hup : c = up
  · simp [snapOf, TickInput.apply, twoRates, hup, hself]
  · by_cases hother : c = other
    · subst hother
      simp [snapOf, TickInput.apply, twoRates, hup, hself]
    · simp [snapOf, TickInput.apply, twoRates, hup, hother, initial]

/-- After the first tick the TCP score of an upstream tells how its rate compares to the greatest
one. -/
theorem tcp_of_twoRates (hups : ∀ up ∈ ups, up.Configured) (hstale : 0 < staleSecs)
    {other : Fin ups.length} (hne : other ≠ up) {rate : ℚ} (hrate : 1 ≤ rate)
    {t : Tasks ups.length}
    (h : relativeStep staleSecs (Tasks.start ups) (twoRates up other rate) = some t) :
    (scores t.mem up).tcp = (75 + relativeScore 1 rate) / 2 := by
  have hsnap := fun c => snapOf_twoRates hstale up other c rate
  obtain ⟨-, hema, -, hscores, -⟩ := relativeStep_spec (inRange_initial hups) h
  have hgreatest :
      (greatest ((twoRates up other rate).apply (initial ups)) 1 staleSecs).1 = rate := by
    have hother : (snapOf ((twoRates up other rate).apply (initial ups)) 1 staleSecs other).rate =
        rate := by rw [(hsnap other).2, if_neg hne, if_pos rfl]
    refine (foldl_max_eq (List.mem_map_of_mem (List.mem_finRange other)) ((hsnap other).1.mpr
      (.inr rfl)) ?_ fun snap hmem _ => ?_).trans hother
    · rw [hother]
      linarith
    · obtain ⟨c, -, rfl⟩ := List.mem_map.mp hmem
      rw [hother, (hsnap c).2]
      split_ifs
      · exact hrate
      · exact le_rfl
      · linarith
  have hpos : 0 < rate := by linarith
  have hema' : t.maxRateEma = rate := by
    rw [hema]
    change emaOfMax 0 (greatest ((twoRates up other rate).apply (initial ups)) 1 staleSecs).1 = rate
    rw [hgreatest, emaOfMax, if_pos hpos, if_pos rfl]
  have hup : (snapOf ((twoRates up other rate).apply (initial ups)) 1 staleSecs up).rate = 1 := by
    rw [(hsnap up).2, if_pos rfl]
  rw [hscores up, hema']
  change (if _ ∧ 0 < rate then _ else _) = _
  rw [if_pos ⟨(hsnap up).1.mpr (.inl rfl), hpos⟩]
  exact congrArg (fun q => (75 + relativeScore q rate) / 2) hup

/-- What is written to an upstream that shares no group with another one may differ. -/
theorem agree_twoRates {other : Fin ups.length} (hout : ¬SharesGroup ups up other)
    (rate rate' : ℚ) : Agree ups up (twoRates up other rate, twoRates up other rate') := by
  refine ⟨rfl, fun c hc => ?_⟩
  have hne : c.owner ≠ other := fun heq => hout (heq ▸ hc)
  cases c with
  | f64 c field => cases field <;> simp [twoRates, show c ≠ other from hne]
  | u64 c field => cases field <;> rfl
  | u32 => rfl
  | flag => rfl

/-- An upstream of another group leaks into the scores: when its rate is 1 the upstream gets half of
1075, and when it is 2, half of 575. -/
theorem exists_leak (hups : ∀ up ∈ ups, up.Configured) (hstale : 0 < staleSecs)
    {other : Fin ups.length} (hout : ¬SharesGroup ups up other) :
    ∃ t, Steps (pairStep (relativeStep staleSecs)) (fun _ i => Agree ups up i)
        (Tasks.start ups, Tasks.start ups) t ∧ scores t.1.mem up ≠ scores t.2.mem up := by
  have hne : other ≠ up := fun heq => hout (.inl heq)
  have hstart : ∀ c, InRange c ((Tasks.start ups).mem c) := inRange_initial hups
  obtain ⟨t₁, h₁⟩ := exists_relativeStep staleSecs hstart (twoRates up other 1)
  obtain ⟨t₂, h₂⟩ := exists_relativeStep staleSecs hstart (twoRates up other 2)
  refine ⟨(t₁, t₂), .tail .refl (agree_twoRates hout 1 2) (pairStep_eq_some_iff.mpr ⟨h₁, h₂⟩), ?_⟩
  intro heq
  have htcp := congrArg Scores.tcp heq
  rw [tcp_of_twoRates hups hstale hne le_rfl h₁,
    tcp_of_twoRates hups hstale hne (by norm_num) h₂] at htcp
  exact absurd htcp (by decide +kernel)

/-- **The scope of the relative scores.** Let two runs of the task, from the same new set of
configured upstreams, have the same clock and the same writes to every upstream that shares a group
with the given one. If at every tick the greatest fresh rate and the greatest fresh probe quality of
all upstreams are the same in both runs, so are the scores of the upstream after every tick. All
such runs give it the same scores exactly when no measurement is ever fresh or every upstream of the
set shares a group with it. -/
theorem relativeScores_scope (hups : ∀ up ∈ ups, up.Configured) (staleSecs : UInt64)
    (up : Fin ups.length) :
    (∀ t, Steps (pairStep (relativeStep staleSecs))
        (fun s i => Agree ups up i ∧ SameGreatest staleSecs s i)
        (Tasks.start ups, Tasks.start ups) t → scores t.1.mem up = scores t.2.mem up) ∧
    ((∀ t, Steps (pairStep (relativeStep staleSecs)) (fun _ i => Agree ups up i)
        (Tasks.start ups, Tasks.start ups) t → scores t.1.mem up = scores t.2.mem up) ↔
      staleSecs = 0 ∨ ∀ other, SharesGroup ups up other) := by
  have hview : ∀ t, Steps (pairStep (relativeStep staleSecs))
      (fun s i => Agree ups up i ∧ SameGreatest staleSecs s i)
      (Tasks.start ups, Tasks.start ups) t → scores t.1.mem up = scores t.2.mem up := by
    intro t ht
    have hsame : SameView up t := ht.invariant (sameView_start hups)
      fun _ _ _ hi hcond h => hi.step hcond.1 hcond.2 h
    exact scores_congr fun c hc => hsame.cells c (owner_of_mem_scoreCells hc)
  refine ⟨hview, fun hall => ?_, fun hcond t ht => ?_⟩
  · by_contra hcond
    obtain ⟨hzero, hout⟩ := not_or.mp hcond
    obtain ⟨other, hother⟩ := not_forall.mp hout
    obtain ⟨t, ht, hne⟩ := exists_leak hups (UInt64.pos_iff_ne_zero.mpr hzero) hother
    exact hne (hall t ht)
  · rcases hcond with rfl | hall
    · refine hview t (ht.mono fun s i hi => ⟨hi, ?_⟩)
      rw [SameGreatest, greatest_of_zero, greatest_of_zero]
    · have hsame : t.1 = t.2 := ht.invariant (I := fun t => t.1 = t.2) rfl
        fun _ _ _ hi hcond h => eq_of_sharesGroup hall hi hcond h
      rw [hsame]

end TwoRuns

/-- Two upstreams, each in one group. -/
abbrev pairIn (g h : Str) : List Upstream :=
  [{ id := [0x61], addr := .v4 ⟨127, 0, 0, 1⟩ 1080, groups := [g], gain := .finite 1 },
    { id := [0x62], addr := .v4 ⟨127, 0, 0, 1⟩ 1081, groups := [h], gain := .finite 1 }]

theorem configured_pairIn (g h : Str) : ∀ up ∈ pairIn g h, up.Configured := by
  intro up hup
  have hweight : (40 : UInt32).toNat ≤ 100 := by decide
  have hstale : 1 ≤ (180 : UInt64).toNat := by decide
  rcases List.mem_pair.mp hup with rfl | rfl
  · exact ⟨⟨1, rfl, one_pos⟩, hweight, hstale⟩
  · exact ⟨⟨1, rfl, one_pos⟩, hweight, hstale⟩

theorem not_sharesGroup_pairIn : ¬SharesGroup (pairIn [0x67] [0x68]) 0 1 := by
  rintro (heq | ⟨group, hg, hh⟩)
  · exact absurd heq (by decide)
  · have hg' : group = [0x67] := List.mem_singleton.mp hg
    have hh' : group = [0x68] := List.mem_singleton.mp hh
    exact absurd (hg'.symm.trans hh') (by decide)

/-- While the upstream of the other group is the slower one, its rate does not matter. -/
theorem relativeScores_scope_slower :
    ∃ t, pairStep (relativeStep 180)
        (Tasks.start (pairIn [0x67] [0x68]), Tasks.start (pairIn [0x67] [0x68]))
        (twoRates 0 1 (1 / 2), twoRates 0 1 (1 / 4)) = some t ∧
      scores t.1.mem 0 = scores t.2.mem 0 := by
  have hups := configured_pairIn [0x67] [0x68]
  have hstart : ∀ c, InRange c ((Tasks.start (pairIn [0x67] [0x68])).mem c) := inRange_initial hups
  have hsame : SameGreatest 180
      (Tasks.start (pairIn [0x67] [0x68]), Tasks.start (pairIn [0x67] [0x68]))
      (twoRates 0 1 (1 / 2), twoRates 0 1 (1 / 4)) := by
    unfold SameGreatest
    decide +kernel
  obtain ⟨t₁, h₁⟩ := exists_relativeStep 180 hstart (twoRates 0 1 (1 / 2))
  obtain ⟨t₂, h₂⟩ := exists_relativeStep 180 hstart (twoRates 0 1 (1 / 4))
  have hagree := agree_twoRates not_sharesGroup_pairIn (1 / 2) (1 / 4)
  refine ⟨(t₁, t₂), pairStep_eq_some_iff.mpr ⟨h₁, h₂⟩, ?_⟩
  exact (relativeScores_scope hups 180 0).1 (t₁, t₂)
    (.tail .refl ⟨hagree, hsame⟩ (pairStep_eq_some_iff.mpr ⟨h₁, h₂⟩))

/-- The scores of an upstream in a group of its own depend on the rate of one in another group. -/
theorem not_relativeScores_scope :
    ¬∀ (ups : List Upstream), (∀ up ∈ ups, up.Configured) →
      ∀ (staleSecs : UInt64) (up : Fin ups.length) (t : Tasks ups.length × Tasks ups.length),
        Steps (pairStep (relativeStep staleSecs)) (fun _ i => Agree ups up i)
          (Tasks.start ups, Tasks.start ups) t → scores t.1.mem up = scores t.2.mem up := by
  intro h
  have hstale : (0 : UInt64) < 180 := by decide
  obtain ⟨t, ht, hne⟩ := exists_leak (configured_pairIn [0x67] [0x68]) hstale not_sharesGroup_pairIn
  exact hne (h _ (configured_pairIn _ _) 180 0 t ht)

end Score

end XtpRs.Upstream
