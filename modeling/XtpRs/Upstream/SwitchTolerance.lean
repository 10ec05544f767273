import XtpRs.Upstream.WeightedPick

/-!
# The switch tolerance

With a tolerance a choice leaves the remembered upstream of its group only when the best member
exceeds it by more than the tolerance. The choice itself is then drawn from all members, the
remembered one and worse ones included.

## Main definitions

* `IsLastMax`: the element that `Iterator::max_by_key` returns.
* `SwitchOpen`: the best member lets the choice leave the remembered one.
* `Drawable`: a member that the weighted choice can return.

## Main results

* `maxByKey_eq_some_iff`: `maxByKey` returns the last of the greatest elements.
* `drawable_iff_mem`: every member can be drawn while the squares fit in 64 bits.
* `switchTolerance_iff`: when every choice honours the tolerance.
-/

namespace XtpRs.Upstream

open Lib

/-- The last of the greatest elements. -/
def IsLastMax {α : Type} (key : α → ℕ) (l : List α) (best : α) : Prop :=
  ∃ before after, l = before ++ best :: after ∧ (∀ a ∈ before, key a ≤ key best) ∧
    ∀ a ∈ after, key a < key best

/-- The best member is another one than the remembered one and exceeds it by more than the
tolerance. -/
def SwitchOpen (tolerance : ℕ) (score : Upstream → ℕ) (items : List Upstream) (cur : Upstream) :
    Prop :=
  ∃ best, IsLastMax score items best ∧ best.id ≠ cur.id ∧ score cur + tolerance < score best

/-- The squares of the scores. -/
def squares (score : Upstream → ℕ) (items : List Upstream) : List ℕ :=
  items.map fun up => score up * score up

/-- Some draw of the weighted choice falls to the member: its score is not zero and the squares
before it stay below the sum, which is taken modulo `2 ^ 64`. When that is zero every member can be
drawn. -/
def Drawable (score : Upstream → ℕ) (items : List Upstream) (up : Upstream) : Prop :=
  ∃ i, ∃ h : i < items.length, items[i] = up ∧
    ((squares score items).sum % 2 ^ 64 = 0 ∨
      ((squares score items).take i).sum < (squares score items).sum % 2 ^ 64 ∧ 0 < score up)

/-! ## The last of the greatest -/

section LastMax

variable {α : Type} {key : α → ℕ} {l : List α} {a b : α}

theorem IsLastMax.le (h : IsLastMax key l b) (ha : a ∈ l) : key a ≤ key b := by
  obtain ⟨before, after, rfl, hbefore, hafter⟩ := h
  rcases List.mem_append.mp ha with ha | ha
  · exact hbefore a ha
  · rcases List.mem_cons.mp ha with rfl | ha
    · exact le_rfl
    · exact (hafter a ha).le

/-- An element after the last of the greatest is smaller, one before it is not greater: so there is
one such element. -/
theorem IsLastMax.unique (ha : IsLastMax key l a) (hb : IsLastMax key l b) : a = b := by
  obtain ⟨before, after, rfl, hbefore, hafter⟩ := ha
  obtain ⟨before', after', heq, hbefore', hafter'⟩ := hb
  rcases List.append_eq_append_iff.mp heq with ⟨mid, rfl, hmid⟩ | ⟨mid, rfl, hmid⟩
  · cases mid with
    | nil => exact (List.cons.inj hmid).1
    | cons x mid =>
      obtain ⟨rfl, rfl⟩ := List.cons.inj hmid
      have hle : key a ≤ key b := hbefore' a (by simp)
      have hlt : key b < key a := hafter b (by simp)
      omega
  · cases mid with
    | nil => exact (List.cons.inj hmid).1.symm
    | cons x mid =>
      obtain ⟨rfl, rfl⟩ := List.cons.inj hmid
      have hle : key b ≤ key a := hbefore b (by simp)
      have hlt : key a < key b := hafter' a (by simp)
      omega

/-- One more element at the end becomes the greatest unless the one before it is greater. -/
theorem maxByKey_append_singleton (l : List α) (a : α) :
    UpstreamSet.maxByKey key (l ++ [a]) = some (match UpstreamSet.maxByKey key l with
      | none => a
      | some best => if key best ≤ key a then a else best) := by
  cases l with
  | nil => rfl
  | cons b rest => simp [UpstreamSet.maxByKey, List.foldl_append]

theorem isLastMax_of_maxByKey (h : UpstreamSet.maxByKey key l = some b) : IsLastMax key l b := by
  induction l using List.reverseRecOn generalizing b with
  | nil => cases h
  | append_singleton l a ih =>
    rw [maxByKey_append_singleton, Option.some.injEq] at h
    cases hmax : UpstreamSet.maxByKey key l with
    | none =>
      obtain rfl : l = [] := by
        cases l with
        | nil => rfl
        | cons => cases hmax
      rw [hmax] at h
      exact ⟨[], [], by rw [← h], nofun, nofun⟩
    | some best =>
      rw [hmax] at h
      dsimp only at h
      split_ifs at h with hle
      · subst h
        exact ⟨l, [], rfl, fun x hx => ((ih hmax).le hx).trans hle, nofun⟩
      · subst h
        obtain ⟨before, after, rfl, hbefore, hafter⟩ := ih hmax
        refine ⟨before, after ++ [a], by simp, hbefore, fun x hx => ?_⟩
        rcases List.mem_append.mp hx with hx | hx
        · exact hafter x hx
        · rw [List.mem_singleton.mp hx]
          exact not_le.mp hle

/-- `maxByKey` returns the last of the greatest elements. -/
theorem maxByKey_eq_some_iff : UpstreamSet.maxByKey key l = some b ↔ IsLastMax key l b := by
  refine ⟨isLastMax_of_maxByKey, fun h => ?_⟩
  have hne : l ≠ [] := by
    obtain ⟨before, after, rfl, -⟩ := h
    simp
  obtain ⟨a, rest, rfl⟩ := List.exists_cons_of_ne_nil hne
  obtain ⟨best, hbest⟩ : ∃ best, UpstreamSet.maxByKey key (a :: rest) = some best := ⟨_, rfl⟩
  rw [hbest, (isLastMax_of_maxByKey hbest).unique h]

end LastMax

/-! ## The draw -/

section Draw

variable {score : Upstream → ℕ} {items : List Upstream} {first up : Upstream}
  {reads : UpstreamSet.PickReads}

theorem length_squares : (squares score items).length = items.length := List.length_map _

theorem getElem_squares {i : ℕ} (hi : i < items.length) (hi' : i < (squares score items).length) :
    (squares score items)[i] = score items[i] * score items[i] :=
  List.getElem_map ..

theorem map_weights (items : List Upstream) (h : reads.effectiveScore .weight = score) :
    (items.map fun up => reads.effectiveScore .weight up * reads.effectiveScore .weight up) =
      squares score items := by
  rw [h]
  rfl

/-- The weighted choice returns a member that can be drawn. -/
theorem drawable_pickSquareWeighted (hscore : reads.effectiveScore .weight = score)
    (hitems : items ≠ []) :
    Drawable score items (UpstreamSet.pickSquareWeighted first items reads) := by
  have hweights := map_weights items hscore
  by_cases htotal : (squares score items).sum % 2 ^ 64 = 0
  · have hlt : reads.pickDraw % items.length < items.length :=
      Nat.mod_lt _ (List.length_pos_iff.mpr hitems)
    refine ⟨_, hlt, ?_, .inl htotal⟩
    simp only [UpstreamSet.pickSquareWeighted, hweights, if_pos htotal]
    exact (List.getD_eq_getElem _ _ hlt).symm
  · have hlt := Nat.mod_lt reads.pickDraw (Nat.pos_of_ne_zero htotal)
    obtain ⟨i, hi⟩ := exists_pickIndex (hlt.trans_le (Nat.mod_le _ _))
    obtain ⟨hil, hle, hupper⟩ := pickIndex_eq_some_iff.mp hi
    have hil' : i < items.length := length_squares ▸ hil
    rw [pickSquareWeighted_eq hweights htotal hi hil']
    refine ⟨i, hil', rfl, .inr ⟨hle.trans_lt hlt, ?_⟩⟩
    by_contra hzero
    rw [getElem_squares hil', Nat.eq_zero_of_not_pos hzero] at hupper
    omega

/-- For every member that can be drawn there is a draw to which it falls. -/
theorem exists_pickDraw (h : Drawable score items up) :
    ∃ draw, ∀ (reads : UpstreamSet.PickReads) (first : Upstream),
      reads.effectiveScore .weight = score → reads.pickDraw = draw →
      UpstreamSet.pickSquareWeighted first items reads = up := by
  obtain ⟨i, hi, rfl, hdraw⟩ := h
  have hi' : i < (squares score items).length := length_squares.symm ▸ hi
  by_cases htotal : (squares score items).sum % 2 ^ 64 = 0
  · refine ⟨i, fun reads first hscore hreads => ?_⟩
    have hweights := map_weights items hscore
    simp only [UpstreamSet.pickSquareWeighted, hweights, if_pos htotal, hreads, Nat.mod_eq_of_lt hi]
    exact List.getD_eq_getElem _ _ hi
  · obtain ⟨hlt, hpos⟩ := hdraw.resolve_left htotal
    refine ⟨((squares score items).take i).sum, fun reads first hscore hreads => ?_⟩
    refine pickSquareWeighted_eq (map_weights items hscore) htotal ?_ hi
    rw [hreads, Nat.mod_eq_of_lt hlt]
    refine pickIndex_eq_some_iff.mpr ⟨hi', le_rfl, ?_⟩
    rw [getElem_squares hi]
    exact Nat.lt_add_of_pos_right (Nat.mul_pos hpos hpos)

/-- While the squares of positive scores fit in 64 bits, every member can be drawn. -/
theorem drawable_iff_mem (hpos : ∀ up ∈ items, 0 < score up)
    (hfit : (squares score items).sum < 2 ^ 64) : Drawable score items up ↔ up ∈ items := by
  constructor
  · rintro ⟨i, hi, rfl, -⟩
    exact List.getElem_mem hi
  · intro hup
    obtain ⟨i, hi, rfl⟩ := List.getElem_of_mem hup
    have hi' : i < (squares score items).length := length_squares.symm ▸ hi
    have hprefix := sum_take_add_le hi'
    have hsquarePos : 0 < (squares score items)[i] := by
      rw [getElem_squares hi]
      exact Nat.mul_pos (hpos _ hup) (hpos _ hup)
    refine ⟨i, hi, rfl, .inr ⟨?_, hpos _ hup⟩⟩
    rw [Nat.mod_eq_of_lt hfit]
    omega

end Draw

/-! ## The choice with a tolerance -/

variable {set : UpstreamSet} {group id : Str} {items : List Upstream} {cur : Upstream}
  {score : Upstream → ℕ} {reads : UpstreamSet.PickReads}

/-- With a remembered member and samples for all members, a choice keeps the remembered one until
the best lets it go, and then draws. -/
theorem pickFromGroup_of_remembered (htolerance : set.tolerance ≠ 0)
    (hgroup : set.groups.lookup group = some items) (hlen : 2 ≤ items.length)
    (hremembered : set.current.lookup group = some (some id))
    (hcur : items.find? (fun up => up.id == id) = some cur)
    (hinit : ∀ up ∈ items, reads.tcpScoreInitialized up = true)
    (hscore : ∀ kind, reads.effectiveScore kind = score) :
    (¬SwitchOpen set.tolerance.toNat score items cur ∧
      (set.pickFromGroup group reads).1 = some cur) ∨
    (SwitchOpen set.tolerance.toNat score items cur ∧
      (set.pickFromGroup group reads).1 =
        some (UpstreamSet.pickSquareWeighted (items.head (by rintro rfl; simp at hlen)) items
          reads)) := by
  match items, hlen with
  | first :: second :: rest, _ =>
    have huninit :
        ((first :: second :: rest).filter fun up => !reads.tcpScoreInitialized up) = [] :=
      List.filter_eq_nil_iff.mpr fun up hup => by simp [hinit up hup]
    obtain ⟨best, hbest⟩ :
        ∃ best, UpstreamSet.maxByKey score (first :: second :: rest) = some best :=
      ⟨_, rfl⟩
    have hmax := maxByKey_eq_some_iff.mp hbest
    have hsticky : set.sticky (first :: second :: rest) group best reads =
        if best.id ≠ cur.id ∧ score cur + set.tolerance.toNat < score best then none
        else some cur := by
      simp [UpstreamSet.sticky, htolerance, hremembered, hcur, hscore]
    have hopen : SwitchOpen set.tolerance.toNat score (first :: second :: rest) cur ↔
        best.id ≠ cur.id ∧ score cur + set.tolerance.toNat < score best :=
      ⟨fun ⟨_, h, hswitch⟩ => h.unique hmax ▸ hswitch, fun h => ⟨best, hmax, h⟩⟩
    rw [hopen]
    by_cases hswitch : best.id ≠ cur.id ∧ score cur + set.tolerance.toNat < score best
    · refine .inr ⟨hswitch, ?_⟩
      rw [if_pos hswitch] at hsticky
      simp [UpstreamSet.pickFromGroup, hgroup, UpstreamSet.pickWeighted, huninit, hscore, hbest,
        hsticky]
    · refine .inl ⟨hswitch, ?_⟩
      rw [if_neg hswitch] at hsticky
      simp [UpstreamSet.pickFromGroup, hgroup, UpstreamSet.pickWeighted, huninit, hscore, hbest,
        hsticky]

/-- **When the tolerance is honoured.** Let the set have a tolerance, let the remembered upstream of
a group be one of its members, of which there are at least two, and let all of them have samples and
scores that do not change during a choice. Then every choice that leaves the remembered one goes to
a member that exceeds it by more than the tolerance, whatever is drawn, if and only if the best
member does not let the choice leave it, or all others that can be drawn exceed it by more than the
tolerance. -/
theorem switchTolerance_iff (htolerance : set.tolerance ≠ 0)
    (hgroup : set.groups.lookup group = some items) (hlen : 2 ≤ items.length)
    (hremembered : set.current.lookup group = some (some id))
    (hcur : items.find? (fun up => up.id == id) = some cur) (score : Upstream → ℕ) :
    (∀ reads : UpstreamSet.PickReads, (∀ up ∈ items, reads.tcpScoreInitialized up = true) →
      (∀ kind, reads.effectiveScore kind = score) →
      ∀ up, (set.pickFromGroup group reads).1 = some up → up ≠ cur →
        score cur + set.tolerance.toNat < score up) ↔
    ¬SwitchOpen set.tolerance.toNat score items cur ∨
      ∀ up, Drawable score items up → up ≠ cur → score cur + set.tolerance.toNat < score up := by
  have hitems : items ≠ [] := by
    rintro rfl
    simp at hlen
  constructor
  · intro hall
    refine or_iff_not_imp_left.mpr fun hopen up hup hne => ?_
    obtain ⟨draw, hdraw⟩ := exists_pickDraw hup
    let reads : UpstreamSet.PickReads := {
      tcpScoreInitialized := fun _ => true
      effectiveScore := fun _ => score
      explore := false
      exploreDraw := 0
      pickDraw := draw }
    have hinit : ∀ up ∈ items, reads.tcpScoreInitialized up = true := fun _ _ => rfl
    have hscore : ∀ kind, reads.effectiveScore kind = score := fun _ => rfl
    rcases pickFromGroup_of_remembered htolerance hgroup hlen hremembered hcur hinit hscore with
      ⟨hshut, -⟩ | ⟨-, hpick⟩
    · exact absurd (not_not.mp hopen) hshut
    · rw [hdraw reads _ rfl rfl] at hpick
      exact hall reads hinit hscore up hpick hne
  · intro hcond reads hinit hscore up hup hne
    rcases pickFromGroup_of_remembered htolerance hgroup hlen hremembered hcur hinit hscore with
      ⟨-, hpick⟩ | ⟨hopen, hpick⟩
    · exact absurd (Option.some.inj (hup.symm.trans hpick)) hne
    · obtain rfl := Option.some.inj (hup.symm.trans hpick)
      exact hcond.resolve_left (not_not.mpr hopen) _
        (drawable_pickSquareWeighted (hscore .weight) hitems) hne

/-- A set with one group, whose first member is remembered, and a tolerance of 100. -/
def tolerantSet (items : List Upstream) : UpstreamSet where
  groups := .singleton [] items
  allItems := items
  current := .singleton [] (some [0x61])
  tolerance := 100

/-- The scores 100, 1000 and 10. -/
def mixedScore (up : Upstream) : ℕ :=
  if up.id = [0x61] then 100 else if up.id = [0x62] then 1000 else 10

/-- What a choice reads when all members have samples and these scores. -/
def mixedReads (pickDraw : ℕ) : UpstreamSet.PickReads where
  tcpScoreInitialized := fun _ => true
  effectiveScore := fun _ => mixedScore
  explore := false
  exploreDraw := 0
  pickDraw

/-- Of two members the other one is better by more than the tolerance. -/
theorem switchTolerance_iff_twoMembers :
    ∃ up, ((tolerantSet [localUpstream [0x61] 1080, localUpstream [0x62] 1081]).pickFromGroup []
        (mixedReads 10000)).1 = some up ∧
      up ≠ localUpstream [0x61] 1080 ∧ 200 < mixedScore up := by
  let items := [localUpstream [0x61] 1080, localUpstream [0x62] 1081]
  have hgroup : (tolerantSet items).groups.lookup [] = some items := by decide +kernel
  have hremembered : (tolerantSet items).current.lookup [] = some (some [0x61]) := by
    decide +kernel
  have hbetter : ∀ up, Drawable mixedScore items up → up ≠ localUpstream [0x61] 1080 →
      200 < mixedScore up := by
    rintro up ⟨i, hi, rfl, -⟩ hne
    match i with
    | 0 => exact absurd rfl hne
    | 1 => exact (by decide : 200 < mixedScore (localUpstream [0x62] 1081))
  have hall := (switchTolerance_iff (by decide) hgroup le_rfl hremembered (by decide +kernel)
    mixedScore).mpr (.inr hbetter)
  have hpick : ((tolerantSet items).pickFromGroup [] (mixedReads 10000)).1 =
      some (localUpstream [0x62] 1081) := by decide +kernel
  have hne : localUpstream [0x62] 1081 ≠ localUpstream [0x61] 1080 := by decide
  exact ⟨_, hpick, hne, hall (mixedReads 10000) (fun _ _ => rfl) (fun _ => rfl) _ hpick hne⟩

/-- The second member is better than the remembered one by more than the tolerance, and the draw
falls to the third one, which is worse. -/
theorem not_switchTolerance :
    ¬∀ (set : UpstreamSet) (group id : Str) (items : List Upstream) (cur : Upstream)
      (score : Upstream → ℕ) (reads : UpstreamSet.PickReads),
      set.tolerance ≠ 0 → set.groups.lookup group = some items → 2 ≤ items.length →
      set.current.lookup group = some (some id) →
      items.find? (fun up => up.id == id) = some cur →
      (∀ up ∈ items, reads.tcpScoreInitialized up = true) →
      (∀ kind, reads.effectiveScore kind = score) →
      ∀ up, (set.pickFromGroup group reads).1 = some up → up ≠ cur →
        score cur + set.tolerance.toNat < score up := by
  intro h
  let items := [localUpstream [0x61] 1080, localUpstream [0x62] 1081, localUpstream [0x63] 1082]
  have hpick : ((tolerantSet items).pickFromGroup [] (mixedReads 1010000)).1 =
      some (localUpstream [0x63] 1082) := by decide +kernel
  have hlt := h (tolerantSet items) [] [0x61] items (localUpstream [0x61] 1080) mixedScore
    (mixedReads 1010000) (by decide) (by decide +kernel) (by decide) (by decide +kernel)
    (by decide +kernel) (fun _ _ => rfl) (fun _ => rfl) _ hpick (by decide)
  exact absurd hlt (by decide)

end XtpRs.Upstream
