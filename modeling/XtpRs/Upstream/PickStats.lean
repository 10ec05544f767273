import XtpRs.Lib.Run

/-!
# How often the upstreams were picked

`PickStats` of `src/upstream.rs` counts the picks of each upstream over the last seconds. Picks are
counted in buckets of a fixed width; a call first drops the buckets that have left the window and
takes their counts from the totals, then counts in the bucket of its time. If the clock has gone
back, it counts in the last bucket there is. A pick counts for one of the `n` upstreams of the set.

In a debug build a call stops if a total does not cover the bucket that is dropped; `none` stands
for that.

## Main definitions

* `PickStats.recordAt`: `PickStats::record_at`.
* `PickStats.Valid`: what holds of the buckets and the totals, whatever the clock does.
* `PickStats.Counted`: what the buckets hold if the clock never goes back.

## Main results

* `PickStats.recordAt_eq`: what a call does.
* `PickStats.Valid.recordAt`, `PickStats.Counted.recordAt`: a call keeps both.
* `PickStats.sliding_window`: after any calls.
-/

namespace XtpRs.Upstream

open Lib

/-- `PICK_STATS_BUCKET_SECS`. -/
def pickStatsBucketSecs : ℕ := 10

/-- `PickStatsBucket`. -/
structure PickStatsBucket (n : ℕ) where
  startSecs : ℕ
  counts : Fin n → ℕ

/-- `PickStatsInner`. -/
structure PickStats (n : ℕ) where
  buckets : List (PickStatsBucket n) := []
  totals : Fin n → ℕ := fun _ => 0

namespace PickStats

variable {n : ℕ}

/-- `bucket_secs` of `PickStats::new`. -/
def bucketSecs (windowSecs : UInt64) : ℕ :=
  max (min pickStatsBucketSecs windowSecs.toNat) 1

/-- The start of the bucket of a time. -/
def bucketStart (windowSecs now : UInt64) : ℕ :=
  now.toNat / bucketSecs windowSecs * bucketSecs windowSecs

/-- The end of the bucket of a time. -/
def bucketEnd (windowSecs now : UInt64) : ℕ :=
  bucketStart windowSecs now + bucketSecs windowSecs

/-- `a.saturating_add(b)`. -/
def saturatingAdd (a b : ℕ) : ℕ :=
  min (a + b) (UInt64.size - 1)

/-- The bucket has left the window. -/
def isExpired (width cutoff : ℕ) (b : PickStatsBucket n) : Bool :=
  saturatingAdd b.startSecs width ≤ cutoff

/-- The loop that drops the buckets outside the window, with its `debug_assert!`. -/
def evict (width cutoff : ℕ) : List (PickStatsBucket n) → (Fin n → ℕ) → Option (PickStats n)
  | [], totals => some ⟨[], totals⟩
  | b :: buckets, totals =>
    if isExpired width cutoff b then
      if ∀ i, b.counts i ≤ totals i then
        evict width cutoff buckets fun i => totals i - b.counts i
      else none
    else some ⟨b :: buckets, totals⟩

/-- A new bucket, unless the last one is that of the call or a later one. -/
def ensureBucket (start : ℕ) (buckets : List (PickStatsBucket n)) : List (PickStatsBucket n) :=
  let useExisting := buckets.getLast?.any fun b => start < b.startSecs
  if !useExisting && buckets.getLast?.all fun b => b.startSecs ≠ start then
    buckets ++ [⟨start, fun _ => 0⟩]
  else buckets

/-- One more at an index. -/
def increment (i : Fin n) (counts : Fin n → ℕ) : Fin n → ℕ :=
  Function.update counts i (counts i + 1)

/-- A pick counted in a bucket. -/
def pickIn (i : Fin n) (b : PickStatsBucket n) : PickStatsBucket n :=
  { b with counts := increment i b.counts }

/-- The pick counted in the last bucket and in the totals. -/
def countPick (i : Fin n) (st : PickStats n) : Option (PickStats n) :=
  st.buckets.getLast?.map fun b =>
    { buckets := st.buckets.dropLast ++ [pickIn i b], totals := increment i st.totals }

/-- `PickStats::record_at`, for a time and the index of an upstream. -/
def recordAt (windowSecs : UInt64) (st : PickStats n) (call : UInt64 × Fin n) :
    Option (PickStats n) :=
  let cutoff := call.1.toNat - windowSecs.toNat
  (evict (bucketSecs windowSecs) cutoff st.buckets st.totals).bind fun st =>
    countPick call.2
      { st with buckets := ensureBucket (bucketStart windowSecs call.1) st.buckets }

/-! ### Sums over the buckets -/

/-- The picks of an upstream in some buckets. -/
def bucketSum (buckets : List (PickStatsBucket n)) (i : Fin n) : ℕ :=
  (buckets.map fun b => b.counts i).sum

theorem bucketSum_append (l m : List (PickStatsBucket n)) (i : Fin n) :
    bucketSum (l ++ m) i = bucketSum l i + bucketSum m i := by
  rw [bucketSum, List.map_append, List.sum_append, bucketSum, bucketSum]

theorem bucketSum_pickIn (i : Fin n) (b : PickStatsBucket n) :
    bucketSum [pickIn i b] = increment i (bucketSum [b]) := by
  funext j
  by_cases h : j = i
  · subst h
    simp [bucketSum, pickIn, increment]
  · simp [bucketSum, pickIn, increment, h]

theorem bucketSum_append_pickIn (l : List (PickStatsBucket n)) (b : PickStatsBucket n)
    (i : Fin n) : bucketSum (l ++ [pickIn i b]) = increment i (bucketSum (l ++ [b])) := by
  funext j
  rw [bucketSum_append, bucketSum_pickIn]
  by_cases h : j = i
  · subst h
    simp only [increment, Function.update_self, bucketSum_append]
    omega
  · simp [increment, h, bucketSum_append]

/-- If the totals are the sums, the assertion holds and they stay so. -/
theorem evict_eq (width cutoff : ℕ) (buckets : List (PickStatsBucket n)) :
    evict width cutoff buckets (bucketSum buckets) =
      some ⟨buckets.dropWhile (isExpired width cutoff),
        bucketSum (buckets.dropWhile (isExpired width cutoff))⟩ := by
  induction buckets with
  | nil => rfl
  | cons b buckets ih =>
      have hcons (i : Fin n) : bucketSum (b :: buckets) i = b.counts i + bucketSum buckets i := rfl
      have hcovers : ∀ i, b.counts i ≤ bucketSum (b :: buckets) i := fun i =>
        (hcons i).symm ▸ Nat.le_add_right _ _
      have hrest : (fun i => bucketSum (b :: buckets) i - b.counts i) = bucketSum buckets := by
        funext i
        rw [hcons, Nat.add_sub_cancel_left]
      by_cases hb : isExpired width cutoff b
      · rw [evict, if_pos hb, if_pos hcovers, hrest, ih, List.dropWhile_cons_of_pos hb]
      · rw [evict, if_neg hb, List.dropWhile_cons_of_neg hb]

/-! ### A call -/

/-- The buckets after a call that leaves `kept` in the window: the last one has one more, or there
is a new one. -/
inductive CountedIn (start : ℕ) (i : Fin n) (kept : List (PickStatsBucket n)) :
    List (PickStatsBucket n) → Prop
  | last {l : List (PickStatsBucket n)} {b : PickStatsBucket n} (hkept : kept = l ++ [b])
      (hle : start ≤ b.startSecs) : CountedIn start i kept (l ++ [pickIn i b])
  | new (hlt : ∀ b ∈ kept.getLast?, b.startSecs < start) :
      CountedIn start i kept (kept ++ [pickIn i ⟨start, fun _ => 0⟩])

/-- The buckets in which a call at `now` can count. -/
def keptAt (windowSecs now : UInt64) (buckets : List (PickStatsBucket n)) :
    List (PickStatsBucket n) :=
  buckets.dropWhile (isExpired (bucketSecs windowSecs) (now.toNat - windowSecs.toNat))

theorem countPick_concat (i : Fin n) (l : List (PickStatsBucket n)) (b : PickStatsBucket n)
    (totals : Fin n → ℕ) :
    countPick i ⟨l ++ [b], totals⟩ = some ⟨l ++ [pickIn i b], increment i totals⟩ := by
  simp [countPick]

theorem ensureBucket_of_lt {start : ℕ} {kept : List (PickStatsBucket n)}
    (h : ∀ b ∈ kept.getLast?, b.startSecs < start) :
    ensureBucket start kept = kept ++ [⟨start, fun _ => 0⟩] := by
  unfold ensureBucket
  cases hlast : kept.getLast? with
  | none => rfl
  | some b =>
      have hlt : b.startSecs < start := h b hlast
      simp [hlt.ne, hlt.le]

theorem ensureBucket_concat_of_le {start : ℕ} {l : List (PickStatsBucket n)}
    {b : PickStatsBucket n} (h : start ≤ b.startSecs) :
    ensureBucket start (l ++ [b]) = l ++ [b] := by
  simp only [ensureBucket, List.getLast?_append, List.getLast?_singleton, Option.some_or,
    Option.any_some, Option.all_some]
  rw [if_neg]
  simp only [Bool.and_eq_true, Bool.not_eq_true', decide_eq_false_iff_not, decide_eq_true_eq]
  omega

/-- If the totals are the sums, a call succeeds, and the totals are the sums after it. -/
theorem recordAt_eq (windowSecs : UInt64) {st : PickStats n}
    (htotal : st.totals = bucketSum st.buckets) (now : UInt64) (i : Fin n) :
    ∃ buckets, recordAt windowSecs st (now, i) = some ⟨buckets, bucketSum buckets⟩ ∧
      CountedIn (bucketStart windowSecs now) i (keptAt windowSecs now st.buckets) buckets := by
  have hevict : recordAt windowSecs st (now, i) =
      countPick i ⟨ensureBucket (bucketStart windowSecs now) (keptAt windowSecs now st.buckets),
        bucketSum (keptAt windowSecs now st.buckets)⟩ := by
    rw [recordAt, htotal, evict_eq]
    rfl
  generalize keptAt windowSecs now st.buckets = kept at hevict ⊢
  by_cases hlt : ∀ b ∈ kept.getLast?, b.startSecs < bucketStart windowSecs now
  · refine ⟨_, ?_, .new hlt⟩
    have hempty : bucketSum (kept ++ [⟨bucketStart windowSecs now, fun _ => 0⟩]) =
        bucketSum kept := by
      funext j
      simp [bucketSum]
    rw [hevict, ensureBucket_of_lt hlt, countPick_concat, bucketSum_append_pickIn, hempty]
  · obtain ⟨b, hb, hle⟩ :
        ∃ b, kept.getLast? = some b ∧ bucketStart windowSecs now ≤ b.startSecs := by
      simpa using hlt
    obtain ⟨l, rfl⟩ := List.getLast?_eq_some_iff.mp hb
    refine ⟨_, ?_, .last rfl hle⟩
    rw [hevict, ensureBucket_concat_of_le hle, countPick_concat, bucketSum_append_pickIn]

/-! ### Whatever the clock does -/

theorem bucketSecs_pos (windowSecs : UInt64) : 0 < bucketSecs windowSecs :=
  Nat.lt_of_lt_of_le one_pos (le_max_right _ _)

/-- The totals are the sums, the buckets are in order, each starts at a multiple of the width, and
all of them are within a window. -/
structure Valid (windowSecs : UInt64) (st : PickStats n) : Prop where
  total : st.totals = bucketSum st.buckets
  ordered : st.buckets.Pairwise fun b c => b.startSecs < c.startSecs
  multiple : ∀ b ∈ st.buckets, bucketSecs windowSecs ∣ b.startSecs
  span : ∀ b ∈ st.buckets, ∀ c ∈ st.buckets,
    c.startSecs < b.startSecs + windowSecs.toNat + bucketSecs windowSecs

theorem valid_init (windowSecs : UInt64) : Valid windowSecs ({} : PickStats n) where
  total := rfl
  ordered := .nil
  multiple := by simp
  span := by simp

theorem saturatingAdd_le (a b : ℕ) : saturatingAdd a b ≤ a + b :=
  min_le_left _ _

/-- The buckets that are kept have not left the window. -/
theorem lt_of_mem_keptAt {windowSecs now : UInt64} {buckets : List (PickStatsBucket n)}
    (hordered : buckets.Pairwise fun b c => b.startSecs < c.startSecs) :
    ∀ b ∈ keptAt windowSecs now buckets,
      now.toNat - windowSecs.toNat < b.startSecs + bucketSecs windowSecs := by
  induction buckets with
  | nil => simp [keptAt]
  | cons c buckets ih =>
      obtain ⟨hc, hordered⟩ := List.pairwise_cons.mp hordered
      by_cases hexp : isExpired (bucketSecs windowSecs) (now.toNat - windowSecs.toNat) c
      · rw [keptAt, List.dropWhile_cons_of_pos hexp]
        exact ih hordered
      · rw [keptAt, List.dropWhile_cons_of_neg hexp]
        have hlt : now.toNat - windowSecs.toNat < c.startSecs + bucketSecs windowSecs := by
          simp only [isExpired, decide_eq_true_eq, not_le] at hexp
          exact hexp.trans_le (saturatingAdd_le _ _)
        intro b hb
        obtain rfl | hb := List.mem_cons.mp hb
        · exact hlt
        · have := hc b hb
          omega

/-- A bucket that is dropped has left the window; this is where the window has to have a length. -/
theorem mem_keptAt_or {windowSecs : UInt64} (now : UInt64) (hwindow : 1 ≤ windowSecs)
    {buckets : List (PickStatsBucket n)} {b : PickStatsBucket n} (hb : b ∈ buckets) :
    b ∈ keptAt windowSecs now buckets ∨
      b.startSecs + bucketSecs windowSecs ≤ now.toNat - windowSecs.toNat := by
  rw [← List.takeWhile_append_dropWhile
    (p := isExpired (bucketSecs windowSecs) (now.toNat - windowSecs.toNat)) (l := buckets),
    List.mem_append] at hb
  refine hb.symm.imp_right fun hb => ?_
  have hexp : saturatingAdd b.startSecs (bucketSecs windowSecs) ≤
      now.toNat - windowSecs.toNat :=
    of_decide_eq_true (List.mem_takeWhile_imp
      (p := isExpired (bucketSecs windowSecs) (now.toNat - windowSecs.toNat)) hb)
  have hpos : 1 ≤ windowSecs.toNat := UInt64.le_iff_toNat_le.mp hwindow
  have hlt : now.toNat < 18446744073709551616 := now.toNat_lt_size
  rw [saturatingAdd, UInt64.size] at hexp
  omega

theorem bucketStart_le (windowSecs now : UInt64) : bucketStart windowSecs now ≤ now.toNat :=
  Nat.div_mul_le_self _ _

/-- If the last bucket is before a time, all of them are. -/
theorem lt_of_getLast?_lt {start : ℕ} {kept : List (PickStatsBucket n)}
    (hkept : kept.Pairwise fun b c => b.startSecs < c.startSecs)
    (hlt : ∀ b ∈ kept.getLast?, b.startSecs < start) : ∀ b ∈ kept, b.startSecs < start := by
  intro b hb
  obtain rfl | ⟨l, c, rfl⟩ := kept.eq_nil_or_concat'
  · exact absurd hb List.not_mem_nil
  · have hc : c.startSecs < start := hlt c (by simp)
    obtain hb | hb := List.mem_append.mp hb
    · exact ((List.pairwise_append.mp hkept).2.2 b hb c List.mem_cons_self).trans hc
    · obtain rfl := List.mem_singleton.mp hb
      exact hc

namespace CountedIn

variable {start : ℕ} {i : Fin n} {kept buckets : List (PickStatsBucket n)}
  (hkept : kept.Pairwise fun b c => b.startSecs < c.startSecs)
  (h : CountedIn start i kept buckets)

include hkept h

/-- A bucket starts where one did before the call, or it is new and the last one. -/
theorem of_mem {b : PickStatsBucket n} (hb : b ∈ buckets) :
    (∃ c ∈ kept, b.startSecs = c.startSecs) ∨
      b.startSecs = start ∧ ∀ c ∈ kept, c.startSecs < start := by
  cases h with
  | @last l c hl hle =>
      rw [hl]
      obtain hb | hb := List.mem_append.mp hb
      · exact .inl ⟨b, List.mem_append_left _ hb, rfl⟩
      · obtain rfl := List.mem_singleton.mp hb
        exact .inl ⟨c, by simp, rfl⟩
  | new hlt =>
      obtain hb | hb := List.mem_append.mp hb
      · exact .inl ⟨b, hb, rfl⟩
      · obtain rfl := List.mem_singleton.mp hb
        exact .inr ⟨rfl, lt_of_getLast?_lt hkept hlt⟩

/-- The buckets stay in order. -/
theorem ordered : buckets.Pairwise fun b c => b.startSecs < c.startSecs := by
  cases h with
  | @last l c hl hle =>
      rw [hl, List.pairwise_append] at hkept
      refine List.pairwise_append.mpr ⟨hkept.1, by simp, fun b hb d hd => ?_⟩
      obtain rfl := List.mem_singleton.mp hd
      exact hkept.2.2 b hb c List.mem_cons_self
  | new hlt =>
      refine List.pairwise_append.mpr ⟨hkept, by simp, fun b hb d hd => ?_⟩
      obtain rfl := List.mem_singleton.mp hd
      exact lt_of_getLast?_lt hkept hlt b hb

end CountedIn

/-- A call keeps what holds of the buckets and the totals. -/
theorem Valid.recordAt {windowSecs : UInt64} {st : PickStats n} (h : Valid windowSecs st)
    (now : UInt64) (i : Fin n) :
    ∃ buckets, PickStats.recordAt windowSecs st (now, i) = some ⟨buckets, bucketSum buckets⟩ ∧
      CountedIn (bucketStart windowSecs now) i (keptAt windowSecs now st.buckets) buckets ∧
      Valid windowSecs ⟨buckets, bucketSum buckets⟩ := by
  obtain ⟨buckets, heq, hcounted⟩ := recordAt_eq windowSecs h.total now i
  have hsub := List.dropWhile_sublist (l := st.buckets)
    (isExpired (bucketSecs windowSecs) (now.toNat - windowSecs.toNat))
  have hkept : (keptAt windowSecs now st.buckets).Pairwise fun b c => b.startSecs < c.startSecs :=
    h.ordered.sublist hsub
  refine ⟨buckets, heq, hcounted, rfl, hcounted.ordered hkept, fun b hb => ?_,
    fun b hb c hc => ?_⟩
  · obtain ⟨c, hc, hbc⟩ | ⟨hb, -⟩ := hcounted.of_mem hkept hb
    · exact hbc ▸ h.multiple c (hsub.subset hc)
    · exact hb ▸ Nat.dvd_mul_left _ _
  · have hpos := bucketSecs_pos windowSecs
    have hstart := bucketStart_le windowSecs now
    obtain ⟨b', hb', hbb'⟩ | ⟨hb, hlt⟩ := hcounted.of_mem hkept hb <;>
      obtain ⟨c', hc', hcc'⟩ | ⟨hc, -⟩ := hcounted.of_mem hkept hc
    · rw [hbb', hcc']
      exact h.span b' (hsub.subset hb') c' (hsub.subset hc')
    · -- the new bucket is not after now, and what is kept is in the window of now
      have hlive := lt_of_mem_keptAt h.ordered b' hb'
      omega
    · have := hlt c' hc'
      omega
    · omega

/-- Buckets in order that start at multiples of the width take up their number of widths. -/
theorem exists_far {width : ℕ} {b : PickStatsBucket n} {buckets : List (PickStatsBucket n)}
    (hordered : (b :: buckets).Pairwise fun b c => b.startSecs < c.startSecs)
    (hmultiple : ∀ c ∈ b :: buckets, width ∣ c.startSecs) :
    ∃ c ∈ b :: buckets, b.startSecs + buckets.length * width ≤ c.startSecs := by
  induction buckets generalizing b with
  | nil => exact ⟨b, List.mem_cons_self, by simp⟩
  | cons d buckets ih =>
      obtain ⟨hb, hordered⟩ := List.pairwise_cons.mp hordered
      obtain ⟨hdvd, hmultiple⟩ := List.forall_mem_cons.mp hmultiple
      obtain ⟨c, hc, hle⟩ := ih hordered hmultiple
      have hstep : b.startSecs + width ≤ d.startSecs := by
        have hlt := hb d List.mem_cons_self
        have hdvd' : width ∣ d.startSecs - b.startSecs :=
          Nat.dvd_sub (hmultiple d List.mem_cons_self) hdvd
        have := Nat.le_of_dvd (by omega) hdvd'
        omega
      refine ⟨c, List.mem_cons_of_mem _ hc, ?_⟩
      rw [List.length_cons, add_mul, one_mul]
      omega

/-- There are only as many buckets as fit into a window, and two. -/
theorem Valid.length_le {windowSecs : UInt64} {st : PickStats n} (h : Valid windowSecs st) :
    st.buckets.length ≤ windowSecs.toNat / bucketSecs windowSecs + 2 := by
  cases hbuckets : st.buckets with
  | nil => simp
  | cons b buckets =>
      have hmem : ∀ c ∈ b :: buckets, c ∈ st.buckets := fun c hc => hbuckets ▸ hc
      obtain ⟨c, hc, hle⟩ := exists_far (hbuckets ▸ h.ordered) fun c hc => h.multiple c (hmem c hc)
      have hspan := h.span b (hmem b List.mem_cons_self) c (hmem c hc)
      have hlt : buckets.length * bucketSecs windowSecs <
          windowSecs.toNat + bucketSecs windowSecs := by omega
      have hdiv : buckets.length < windowSecs.toNat / bucketSecs windowSecs + 1 + 1 := by
        have hpos := bucketSecs_pos windowSecs
        rw [← Nat.add_div_right _ hpos]
        have := (Nat.le_div_iff_mul_le hpos).mpr hlt.le
        omega
      rw [List.length_cons]
      omega

/-! ### If the clock never goes back -/

/-- The calls so far for an upstream with a property of their time. -/
def callsAt (history : List (UInt64 × Fin n)) (j : Fin n) (p : UInt64 → Bool) : ℕ :=
  history.countP fun c => decide (c.2 = j) && p c.1

theorem callsAt_concat (history : List (UInt64 × Fin n)) (now : UInt64) (i j : Fin n)
    (p : UInt64 → Bool) :
    callsAt (history ++ [(now, i)]) j p =
      callsAt history j p + if i = j ∧ p now then 1 else 0 := by
  rw [callsAt, List.countP_append, ← callsAt, List.countP_singleton]
  simp only [Bool.and_eq_true, decide_eq_true_eq]

theorem callsAt_add {history : List (UInt64 × Fin n)} {j : Fin n} {p q : UInt64 → Bool}
    (hdisjoint : ∀ t, p t → q t = false) :
    callsAt history j p + callsAt history j q = callsAt history j fun t => p t || q t := by
  induction history with
  | nil => rfl
  | cons c history ih =>
      simp only [callsAt, List.countP_cons] at ih ⊢
      rw [← ih]
      by_cases hp : p c.1
      · simp only [hp, hdisjoint c.1 hp]
        simp
        omega
      · simp [hp]
        omega

theorem callsAt_congr {history : List (UInt64 × Fin n)} {j : Fin n} {p q : UInt64 → Bool}
    (h : ∀ c ∈ history, p c.1 = q c.1) : callsAt history j p = callsAt history j q :=
  List.countP_congr fun c hc => by rw [h c hc]

/-- What the buckets hold at a cutoff: each bucket the calls of its time, and all buckets together
the calls that have not left the window. -/
structure Counted (windowSecs : UInt64) (cutoff : ℕ) (history : List (UInt64 × Fin n))
    (buckets : List (PickStatsBucket n)) : Prop where
  counts : ∀ b ∈ buckets, ∀ j,
    b.counts j = callsAt history j fun t => bucketStart windowSecs t = b.startSecs
  live : ∀ b ∈ buckets, cutoff < b.startSecs + bucketSecs windowSecs
  called : ∀ b ∈ buckets, ∃ c ∈ history, bucketStart windowSecs c.1 = b.startSecs
  kept : ∀ c ∈ history, (∃ b ∈ buckets, b.startSecs = bucketStart windowSecs c.1) ∨
    bucketEnd windowSecs c.1 ≤ cutoff

theorem lt_bucketEnd (windowSecs now : UInt64) : now.toNat < bucketEnd windowSecs now := by
  exact Nat.lt_div_mul_add (bucketSecs_pos windowSecs)

theorem bucketStart_mono {windowSecs now now' : UInt64} (h : now ≤ now') :
    bucketStart windowSecs now ≤ bucketStart windowSecs now' :=
  Nat.mul_le_mul_right _ (Nat.div_le_div_right (UInt64.le_iff_toNat_le.mp h))

section Monotone

variable {windowSecs now : UInt64} {cutoff : ℕ} {history : List (UInt64 × Fin n)}
  {st : PickStats n} {i : Fin n} {buckets : List (PickStatsBucket n)}
  (hwindow : 1 ≤ windowSecs) (hvalid : Valid windowSecs st)
  (h : Counted windowSecs cutoff history st.buckets) (hle : ∀ c ∈ history, c.1 ≤ now)
  (hcutoff : cutoff ≤ now.toNat - windowSecs.toNat)
  (hcounted : CountedIn (bucketStart windowSecs now) i (keptAt windowSecs now st.buckets) buckets)

include hwindow hvalid h hle hcutoff hcounted

/-- A call counts in a bucket of its time, which has the earlier calls of that time. -/
theorem CountedIn.exists_current :
    ∃ l b, buckets = l ++ [pickIn i b] ∧ b.startSecs = bucketStart windowSecs now ∧
      (∀ j, b.counts j =
        callsAt history j fun t => bucketStart windowSecs t = bucketStart windowSecs now) ∧
      (∀ c ∈ l, c ∈ keptAt windowSecs now st.buckets ∧ c.startSecs < bucketStart windowSecs now) ∧
      ∀ c ∈ keptAt windowSecs now st.buckets,
        c ∈ l ∨ c.startSecs = bucketStart windowSecs now := by
  have hsub := List.dropWhile_sublist (l := st.buckets)
    (isExpired (bucketSecs windowSecs) (now.toNat - windowSecs.toNat))
  have hordered : (keptAt windowSecs now st.buckets).Pairwise
      fun b c => b.startSecs < c.startSecs := hvalid.ordered.sublist hsub
  cases hcounted with
  | @last l b hkept hlast =>
      have hmem : b ∈ keptAt windowSecs now st.buckets := hkept ▸ by simp
      obtain ⟨c, hc, hcb⟩ := h.called b (hsub.subset hmem)
      have hstart : b.startSecs = bucketStart windowSecs now :=
        le_antisymm (hcb ▸ bucketStart_mono (hle c hc)) hlast
      refine ⟨l, b, rfl, hstart, fun j => hstart ▸ h.counts b (hsub.subset hmem) j,
        fun c hc => ⟨hkept ▸ List.mem_append_left _ hc, ?_⟩, fun c hc => ?_⟩
      · rw [hkept] at hordered
        exact hstart ▸ (List.pairwise_append.mp hordered).2.2 c hc b List.mem_cons_self
      · rw [hkept] at hc
        refine (List.mem_append.mp hc).imp_right fun hc => ?_
        rw [List.mem_singleton.mp hc, hstart]
  | new hlt =>
      have hbefore := lt_of_getLast?_lt hordered hlt
      refine ⟨_, _, rfl, rfl, fun j => ?_, fun c hc => ⟨hc, hbefore c hc⟩, fun c hc => .inl hc⟩
      -- an earlier call of this time would have a bucket, which would not have left the window
      refine (List.countP_eq_zero.mpr fun c hc hcj => ?_).symm
      have hstart : bucketStart windowSecs c.1 = bucketStart windowSecs now := by
        simp only [Bool.and_eq_true, decide_eq_true_eq] at hcj
        exact hcj.2
      have hend := lt_bucketEnd windowSecs now
      rw [bucketEnd] at hend
      obtain ⟨b, hb, hbc⟩ | hexp := h.kept c hc
      · obtain hmem | hexp := mem_keptAt_or now hwindow hb
        · have := hbefore b hmem
          omega
        · omega
      · rw [bucketEnd] at hexp
        omega

/-- A call keeps what the buckets hold. -/
theorem Counted.recordAt :
    Counted windowSecs (now.toNat - windowSecs.toNat) (history ++ [(now, i)]) buckets := by
  have hsub := List.dropWhile_sublist (l := st.buckets)
    (isExpired (bucketSecs windowSecs) (now.toNat - windowSecs.toNat))
  obtain ⟨l, b, rfl, hstart, hcounts, hl, hkept⟩ :=
    hcounted.exists_current hwindow hvalid h hle hcutoff
  have hend := lt_bucketEnd windowSecs now
  rw [bucketEnd] at hend
  refine ⟨?_, ?_, ?_, ?_⟩
  · intro c hc j
    rw [callsAt_concat]
    obtain hc | hc := List.mem_append.mp hc
    · have hne : bucketStart windowSecs now ≠ c.startSecs := (hl c hc).2.ne'
      simp [h.counts c (hsub.subset (hl c hc).1) j, hne]
    · obtain rfl := List.mem_singleton.mp hc
      simp only [pickIn, increment, hstart, Function.update_apply, hcounts, decide_true, and_true]
      by_cases hij : j = i
      · simp [hij]
      · simp [hij, Ne.symm hij]
  · intro c hc
    obtain hc | hc := List.mem_append.mp hc
    · exact lt_of_mem_keptAt hvalid.ordered c (hl c hc).1
    · obtain rfl := List.mem_singleton.mp hc
      simp only [pickIn]
      omega
  · intro c hc
    obtain hc | hc := List.mem_append.mp hc
    · obtain ⟨d, hd, hdc⟩ := h.called c (hsub.subset (hl c hc).1)
      exact ⟨d, List.mem_append_left _ hd, hdc⟩
    · obtain rfl := List.mem_singleton.mp hc
      exact ⟨(now, i), by simp, hstart.symm⟩
  · intro c hc
    obtain hc | hc := List.mem_append.mp hc
    · obtain ⟨d, hd, hdc⟩ | hexp := h.kept c hc
      · obtain hmem | hexp := mem_keptAt_or now hwindow hd
        · obtain hmem | hd' := hkept d hmem
          · exact .inl ⟨d, List.mem_append_left _ hmem, hdc⟩
          · exact .inl ⟨pickIn i b, by simp, by rw [← hdc, hd', ← hstart]; rfl⟩
        · right
          rw [bucketEnd]
          omega
      · exact .inr (hexp.trans hcutoff)
    · obtain rfl := List.mem_singleton.mp hc
      exact .inl ⟨pickIn i b, by simp, hstart⟩

end Monotone

/-- The buckets together have the calls of their times. -/
theorem bucketSum_eq_callsAt {windowSecs : UInt64} {history : List (UInt64 × Fin n)}
    {buckets : List (PickStatsBucket n)}
    (hordered : buckets.Pairwise fun b c => b.startSecs < c.startSecs)
    (hcounts : ∀ b ∈ buckets, ∀ j,
      b.counts j = callsAt history j fun t => bucketStart windowSecs t = b.startSecs) (j : Fin n) :
    bucketSum buckets j =
      callsAt history j fun t => ∃ b ∈ buckets, b.startSecs = bucketStart windowSecs t := by
  induction buckets with
  | nil => simp [bucketSum, callsAt]
  | cons b buckets ih =>
      obtain ⟨hb, hordered⟩ := List.pairwise_cons.mp hordered
      obtain ⟨hbcounts, hcounts⟩ := List.forall_mem_cons.mp hcounts
      have hcons : bucketSum (b :: buckets) j = b.counts j + bucketSum buckets j := rfl
      rw [hcons, hbcounts, ih hordered hcounts, callsAt_add]
      · refine callsAt_congr fun c _ => ?_
        simp [eq_comm]
      · intro t ht
        have ht : bucketStart windowSecs t = b.startSecs := of_decide_eq_true ht
        refine decide_eq_false ?_
        rintro ⟨c, hc, hct⟩
        have := hb c hc
        omega

/-- The cutoff of the last call. -/
def cutoffOf (windowSecs : UInt64) (history : List (UInt64 × Fin n)) : ℕ :=
  history.getLast?.elim 0 fun c => c.1.toNat - windowSecs.toNat

/-- The clock readings never decrease. -/
def NonDecreasing (calls : List (UInt64 × Fin n)) : Prop :=
  calls.Pairwise fun c d => c.1 ≤ d.1

theorem cutoffOf_le {windowSecs : UInt64} {history : List (UInt64 × Fin n)} {now : UInt64}
    (hle : ∀ c ∈ history, c.1 ≤ now) :
    cutoffOf windowSecs history ≤ now.toNat - windowSecs.toNat := by
  unfold cutoffOf
  cases hlast : history.getLast? with
  | none => exact Nat.zero_le _
  | some c =>
      have hc := UInt64.le_iff_toNat_le.mp (hle c (List.mem_of_getLast? hlast))
      simp only [Option.elim_some]
      omega

/-- After any calls no assertion has failed, and what a call keeps holds. -/
theorem exists_run_recordAt {windowSecs : UInt64} (hwindow : 1 ≤ windowSecs)
    (calls : List (UInt64 × Fin n)) :
    ∃ st, run (recordAt windowSecs) {} calls = some st ∧ Valid windowSecs st ∧
      (NonDecreasing calls →
        Counted windowSecs (cutoffOf windowSecs calls) calls st.buckets) := by
  refine exists_run (I := fun history (st : PickStats n) => Valid windowSecs st ∧
    (NonDecreasing history →
      Counted windowSecs (cutoffOf windowSecs history) history st.buckets))
    ⟨valid_init windowSecs, fun _ => ⟨by simp, by simp, by simp, by simp⟩⟩ ?_ calls
  rintro history st ⟨now, i⟩ ⟨hvalid, hcounted⟩
  obtain ⟨buckets, heq, hin, hvalid'⟩ := hvalid.recordAt now i
  refine ⟨_, heq, hvalid', fun hmono => ?_⟩
  obtain ⟨hhistory, -, hle⟩ := List.pairwise_append.mp hmono
  have hle : ∀ c ∈ history, c.1 ≤ now := fun c hc => hle c hc _ List.mem_cons_self
  have hlast : cutoffOf windowSecs (history ++ [(now, i)]) = now.toNat - windowSecs.toNat := by
    simp [cutoffOf]
  rw [hlast]
  exact (hcounted hhistory).recordAt hwindow hvalid hle (cutoffOf_le hle) hin

/-- The totals of a sliding window: for any calls, the assertion never fails, the totals are the
sums of the counts, the buckets start at increasing multiples of their width and fit into the window
but for two. If the clock never goes back, the totals count the calls of buckets that end after the
begin of the window. -/
theorem sliding_window {windowSecs : UInt64} (hwindow : 1 ≤ windowSecs)
    (calls : List (UInt64 × Fin n)) :
    ∃ st : PickStats n, run (recordAt windowSecs) {} calls = some st ∧
      (∀ i, st.totals i = (st.buckets.map fun b => b.counts i).sum) ∧
      (st.buckets.Pairwise fun b c => b.startSecs < c.startSecs) ∧
      (∀ b ∈ st.buckets, bucketSecs windowSecs ∣ b.startSecs) ∧
      st.buckets.length ≤ windowSecs.toNat / bucketSecs windowSecs + 2 ∧
      ∀ earlier now i, calls = earlier ++ [(now, i)] → NonDecreasing calls →
        ∀ j, st.totals j = calls.countP fun c =>
          decide (c.2 = j) && decide (now.toNat - windowSecs.toNat < bucketEnd windowSecs c.1) := by
  obtain ⟨st, hrun, hvalid, hcounted⟩ := exists_run_recordAt hwindow calls
  refine ⟨st, hrun, fun i => congrFun hvalid.total i, hvalid.ordered, hvalid.multiple,
    hvalid.length_le, ?_⟩
  rintro earlier now i hcalls hmono j
  have hcounted := hcounted hmono
  have hcutoff : cutoffOf windowSecs calls = now.toNat - windowSecs.toNat := by
    simp [cutoffOf, hcalls]
  rw [hcutoff] at hcounted
  rw [hvalid.total, bucketSum_eq_callsAt hvalid.ordered hcounted.counts j]
  change _ = callsAt calls j fun t => now.toNat - windowSecs.toNat < bucketEnd windowSecs t
  refine callsAt_congr fun c hc => decide_eq_decide.mpr ⟨?_, fun hlive => ?_⟩
  · rintro ⟨b, hb, hbc⟩
    rw [bucketEnd, ← hbc]
    exact hcounted.live b hb
  · exact (hcounted.kept c hc).resolve_right (not_le.mpr hlive)

/-- The calls of a window of 30 seconds: the third call drops the bucket of the first. -/
theorem sliding_window_three_calls :
    ∃ st : PickStats 2, run (recordAt 30) {}
        [(1, ⟨0, by decide⟩), (12, ⟨1, by decide⟩), (41, ⟨1, by decide⟩)] = some st ∧
      st.buckets.length ≤ 5 ∧ ∀ j, st.totals j =
        [(1, ⟨0, by decide⟩), (12, ⟨1, by decide⟩), (41, ⟨1, by decide⟩)].countP
          fun c : UInt64 × Fin 2 => decide (c.2 = j) && decide (11 < bucketEnd 30 c.1) := by
  obtain ⟨st, hrun, -, -, -, hlength, htotals⟩ := sliding_window (n := 2)
    (by decide : (1 : UInt64) ≤ 30)
    [(1, ⟨0, by decide⟩), (12, ⟨1, by decide⟩), (41, ⟨1, by decide⟩)]
  exact ⟨st, hrun, hlength, htotals [(1, ⟨0, by decide⟩), (12, ⟨1, by decide⟩)] 41 ⟨1, by decide⟩
    rfl (by unfold NonDecreasing; decide)⟩

end PickStats

end XtpRs.Upstream
