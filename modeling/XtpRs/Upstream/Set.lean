import XtpRs.Net.Addr

/-!
# Upstream sets

`UpstreamSet` of `src/upstream.rs`: the upstreams of a configuration by group, and the choice of one
of them. What a choice reads besides the set (the scores, which change under it, and the random
draws) is an argument of it.

## Main definitions

* `UpstreamSet.new`, `UpstreamSet.pickFromGroup`, `UpstreamSet.pickExcludingManyFromGroup`.

## Main results

* `UpstreamSet.lookup_groups`: the members of a group, in order.
* `UpstreamSet.isSome_pickWeighted`, `UpstreamSet.mem_of_pickWeighted`: a non-empty list of
  candidates always yields one of them.
-/

namespace XtpRs.Upstream

open Lib

/-- An `f64`: not a number, an infinity, or the rational it stands for. -/
inductive F64
  | nan
  | infinite (negative : Bool)
  | finite (value : ℚ)
  deriving DecidableEq

namespace F64

/-- `f64::is_finite`. -/
def isFinite : F64 → Bool
  | finite _ => true
  | _ => false

/-- `x <= 0.0`. -/
def leZero : F64 → Bool
  | nan => false
  | infinite negative => negative
  | finite value => value ≤ 0

end F64

end XtpRs.Upstream

namespace XtpRs

open Lib Upstream

/-- What is fixed of an `Upstream` once its set is built. -/
structure Upstream where
  protected id : Str
  addr : SocketAddr
  groups : List Str
  gain : F64
  quicWeight : UInt32 := 40
  quicStaleSecs : UInt64 := 180
  deriving DecidableEq

end XtpRs

namespace XtpRs.Upstream

open Lib

/-- `Upstream::set_quic_weight`. -/
def setQuicWeight (up : Upstream) (w : UInt32) : Upstream :=
  { up with quicWeight := if w ≤ 100 then w else 100 }

/-- `Upstream::set_quic_stale_secs`. -/
def setQuicStaleSecs (up : Upstream) (secs : UInt64) : Upstream :=
  { up with quicStaleSecs := if 1 ≤ secs then secs else 1 }

/-- `UpstreamSet`. -/
structure UpstreamSet where
  groups : HashMap Str (List Upstream)
  allItems : List Upstream
  current : HashMap Str (Option Str)
  tolerance : UInt32

/-- The pairs of a group and an upstream in it, in the order of the nested loops over upstreams and
their groups. -/
def memberships (items : List Upstream) : List (Str × Upstream) :=
  items.flatMap fun up => up.groups.map fun group => (group, up)

namespace UpstreamSet

/-- The failure of `UpstreamSet::new`. -/
inductive NewError
  | emptyItems
  deriving DecidableEq, Repr

/-- `UpstreamSet::new`. The groups share the upstreams with the list of all items, so the settings
made after the groups are filled are seen through both. -/
def new (items : List Upstream) (tolerance quicWeight : UInt32) (quicStaleSecs : UInt64) :
    Except NewError UpstreamSet :=
  if items.isEmpty then .error .emptyItems
  else
    let items := items.map fun up =>
      (up.setQuicWeight quicWeight).setQuicStaleSecs quicStaleSecs
    .ok {
      groups := (memberships items).foldl
        (fun groups e => HashMap.upsert groups [] e.1 (· ++ [e.2])) ∅
      allItems := items
      current := ∅
      tolerance }

/-- The points at which a choice reads an effective score. -/
inductive ScoreRead
  | max
  | best
  | current
  | weight
  deriving DecidableEq, Repr

/-- What a choice reads besides the set: which upstreams have a sample, the effective scores (each
read on its own), whether the draw of `fastrand::f32` is below `PICK_EXPLORE_RATIO`, and the draws
from which `fastrand` takes a number below a bound. -/
structure PickReads where
  tcpScoreInitialized : Upstream → Bool
  effectiveScore : ScoreRead → Upstream → ℕ
  explore : Bool
  exploreDraw : ℕ
  pickDraw : ℕ

/-- `Iterator::max_by_key`: the last of the greatest elements. -/
def maxByKey {α : Type} (key : α → ℕ) : List α → Option α
  | [] => none
  | a :: rest => some (rest.foldl (fun best b => if key best ≤ key b then b else best) a)

/-- The loop of the weighted choice. -/
def pickByWeight : List (Upstream × ℕ) → ℕ → Option Upstream
  | [], _ => none
  | (up, w) :: rest, r => if r < w then some up else pickByWeight rest (r - w)

variable (set : UpstreamSet)

/-- The choice for a group is remembered in `current`. -/
def remember (group : Str) (chosen : Upstream) : UpstreamSet :=
  { set with current := set.current.insert group (some chosen.id) }

/-- The current upstream of the group, when it is a candidate and the best one does not exceed it
by more than the tolerance. -/
def sticky (items : List Upstream) (group : Str) (best : Upstream) (reads : PickReads) :
    Option Upstream :=
  if set.tolerance = 0 then none
  else do
    let id ← (set.current.lookup group).join
    let cur ← items.find? fun up => up.id == id
    if best.id ≠ cur.id ∧ reads.effectiveScore .current cur + set.tolerance.toNat <
        reads.effectiveScore .best best then
      none
    else some cur

/-- The square-weighted random choice. -/
def pickSquareWeighted (first : Upstream) (items : List Upstream) (reads : PickReads) : Upstream :=
  let weights := items.map fun up =>
    reads.effectiveScore .weight up * reads.effectiveScore .weight up
  let totalWeight := weights.sum % 2 ^ 64
  if totalWeight = 0 then items.getD (reads.pickDraw % items.length) first
  else (pickByWeight (items.zip weights) (reads.pickDraw % totalWeight)).getD first

/-- `UpstreamSet::pick_weighted`, with the set it leaves. -/
def pickWeighted (items : List Upstream) (group : Str) (reads : PickReads) :
    Option Upstream × UpstreamSet :=
  match items with
  | [] => (none, set)
  | [up] => (some up, set.remember group up)
  | first :: _ =>
    let uninit := items.filter fun up => !reads.tcpScoreInitialized up
    if !uninit.isEmpty && reads.explore then
      let chosen := uninit.getD (reads.exploreDraw % uninit.length) first
      (some chosen, set.remember group chosen)
    else
      match maxByKey (reads.effectiveScore .max) items with
      | none => (none, set)
      | some best =>
        match set.sticky items group best reads with
        | some cur => (some cur, set)
        | none =>
          let chosen := pickSquareWeighted first items reads
          (some chosen, set.remember group chosen)

/-- `UpstreamSet::pick_from_group`. -/
def pickFromGroup (group : Str) (reads : PickReads) : Option Upstream × UpstreamSet :=
  match set.groups.lookup group with
  | none => (none, set)
  | some items => set.pickWeighted items group reads

/-- `UpstreamSet::pick_excluding_many_from_group`. -/
def pickExcludingManyFromGroup (group : Str) (exclude : Finset Str) (reads : PickReads) :
    Option Upstream × UpstreamSet :=
  match set.groups.lookup group with
  | none => (none, set)
  | some items =>
    let candidates := items.filter fun up => up.id ∉ exclude
    if candidates.isEmpty then (none, set) else set.pickWeighted candidates group reads

variable {set} {items : List Upstream} {group : Str} {reads : PickReads}

/-- A non-empty list of candidates always yields one. -/
theorem isSome_pickWeighted (h : items ≠ []) :
    (set.pickWeighted items group reads).1.isSome = true := by
  match items, h with
  | [up], _ => rfl
  | first :: second :: rest, _ =>
    simp only [pickWeighted, maxByKey]
    split
    · rfl
    · split <;> rfl

theorem mem_of_pickByWeight {entries : List (Upstream × ℕ)} {r : ℕ} {up : Upstream}
    (h : pickByWeight entries r = some up) : ∃ w, (up, w) ∈ entries := by
  induction entries generalizing r with
  | nil => cases h
  | cons e rest ih =>
    rw [pickByWeight] at h
    split_ifs at h
    · obtain rfl := Option.some.inj h
      exact ⟨e.2, List.mem_cons_self⟩
    · obtain ⟨w, hw⟩ := ih h
      exact ⟨w, List.mem_cons_of_mem e hw⟩

theorem getD_mem {first : Upstream} (hfirst : first ∈ items) (i : ℕ) :
    items.getD i first ∈ items := by
  rcases lt_or_ge i items.length with hi | hi
  · rw [List.getD_eq_getElem _ _ hi]
    exact List.getElem_mem hi
  · rwa [List.getD_eq_default _ _ hi]

theorem pickSquareWeighted_mem {first : Upstream} (hfirst : first ∈ items) :
    pickSquareWeighted first items reads ∈ items := by
  simp only [pickSquareWeighted]
  split_ifs
  · exact getD_mem hfirst _
  · cases hpick : pickByWeight _ _ with
    | none => exact hfirst
    | some up =>
      obtain ⟨w, hw⟩ := mem_of_pickByWeight hpick
      exact (List.of_mem_zip hw).1

theorem mem_of_sticky {best cur : Upstream} (h : set.sticky items group best reads = some cur) :
    cur ∈ items := by
  unfold sticky at h
  split_ifs at h
  simp only [Option.bind_eq_bind, Option.bind_eq_some_iff] at h
  obtain ⟨id, -, found, hfound, h⟩ := h
  split_ifs at h
  obtain rfl := Option.some.inj h
  exact List.mem_of_find?_eq_some hfound

/-- A choice is one of the candidates. -/
theorem mem_of_pickWeighted {up : Upstream} (h : (set.pickWeighted items group reads).1 = some up) :
    up ∈ items := by
  match items with
  | [] => cases h
  | [only] =>
    obtain rfl := Option.some.inj h
    exact List.mem_cons_self
  | first :: second :: rest =>
    have hfirst : first ∈ first :: second :: rest := List.mem_cons_self
    simp only [pickWeighted] at h
    split_ifs at h with hexplore
    · obtain rfl := Option.some.inj h
      simp only [Bool.and_eq_true, Bool.not_eq_true', List.isEmpty_eq_false_iff] at hexplore
      have hlt := Nat.mod_lt reads.exploreDraw (List.length_pos_iff.mpr hexplore.1)
      rw [List.getD_eq_getElem _ _ hlt]
      exact List.mem_of_mem_filter (List.getElem_mem hlt)
    · split at h
      · cases h
      · split at h
        · next hsticky =>
          obtain rfl := Option.some.inj h
          exact mem_of_sticky hsticky
        · obtain rfl := Option.some.inj h
          exact pickSquareWeighted_mem hfirst

/-- The upstreams of a new set. -/
theorem allItems_of_new {tolerance quicWeight : UInt32} {quicStaleSecs : UInt64}
    (h : UpstreamSet.new items tolerance quicWeight quicStaleSecs = .ok set) :
    set.allItems = items.map fun up =>
      (up.setQuicWeight quicWeight).setQuicStaleSecs quicStaleSecs := by
  unfold UpstreamSet.new at h
  split_ifs at h
  cases h
  rfl

/-- The members of a group of a new set, with the repetitions of the configuration. -/
theorem lookup_groups {tolerance quicWeight : UInt32} {quicStaleSecs : UInt64}
    (h : UpstreamSet.new items tolerance quicWeight quicStaleSecs = .ok set) (group : Str) :
    (set.groups.lookup group).getD [] =
      ((memberships set.allItems).filter fun e => e.1 = group).map Prod.snd := by
  have hconcat : ∀ (l : List (Str × Upstream)) (acc : List Upstream),
      l.foldl (fun members e => members ++ [e.2]) acc = acc ++ l.map Prod.snd := by
    intro l
    induction l with
    | nil => simp
    | cons e l ih => simp [ih]
  unfold UpstreamSet.new at h
  split_ifs at h
  cases h
  dsimp only
  rw [HashMap.getD_lookup_foldl_upsert, hconcat]
  rfl

end UpstreamSet

end XtpRs.Upstream
