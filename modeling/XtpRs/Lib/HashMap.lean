import Mathlib

/-!
# Finite maps

A hash map is an association list with distinct keys (`AList`), whose entries stand in the order
in which an iteration meets them. `lookup_insert_eq_ite` and `lookup_erase_eq_ite` read it after
an update at any key. `SameEntries` and `Rel` compare maps without regard to the order.
-/

namespace XtpRs.Lib

/-- A hash map: distinct keys, each with a value, in the order of iteration. -/
abbrev HashMap (K V : Type*) := AList fun _ : K => V

namespace HashMap

variable {K V : Type*}

/-- The entries of a map in the order of iteration. -/
def toList (m : HashMap K V) : List (K × V) :=
  m.entries.map fun e => (e.1, e.2)

/-- The map with a function applied to every value. -/
def mapValues {W : Type*} (m : HashMap K V) (f : V → W) : HashMap K W where
  entries := m.entries.map fun e => ⟨e.1, f e.2⟩
  nodupKeys := by
    rw [List.NodupKeys, List.keys, List.map_map]
    exact m.nodupKeys

/-- The entries that pass a check. -/
def retain (m : HashMap K V) (p : K → V → Bool) : HashMap K V where
  entries := m.entries.filter fun e => p e.1 e.2
  nodupKeys := m.nodupKeys.sublist List.filter_sublist

/-- The number of entries. -/
def size (m : HashMap K V) : ℕ := m.entries.length

theorem size_retain_le (m : HashMap K V) (p : K → V → Bool) : (m.retain p).size ≤ m.size :=
  List.length_filter_le _ _

/-- A check that some entry fails leaves fewer entries. -/
theorem size_retain_lt {m : HashMap K V} {p : K → V → Bool} {k : K} {v : V} (hv : (k, v) ∈ m.toList)
    (hp : p k v = false) : (m.retain p).size < m.size := by
  obtain ⟨e, he, heq⟩ := List.mem_map.mp hv
  obtain ⟨rfl, rfl⟩ := Prod.mk.inj heq
  exact List.length_filter_lt_length_iff_exists.mpr ⟨e, he, by simp [hp]⟩

/-- A check that every entry passes leaves the map as it is. -/
theorem retain_eq_self {m : HashMap K V} {p : K → V → Bool}
    (hp : ∀ e ∈ m.toList, p e.1 e.2 = true) : m.retain p = m := by
  refine AList.ext (List.filter_eq_self.mpr fun e he => ?_)
  exact hp (e.1, e.2) (List.mem_map.mpr ⟨e, he, rfl⟩)

variable [DecidableEq K] (m : HashMap K V)

theorem lookup_mapValues {W : Type*} (m : HashMap K V) (f : V → W) (k : K) :
    (m.mapValues f).lookup k = (m.lookup k).map f := by
  have hentries : ∀ l : List (Σ _ : K, V),
      List.dlookup k (l.map fun e => (⟨e.1, f e.2⟩ : Σ _ : K, W)) = (List.dlookup k l).map f := by
    intro l
    induction l with
    | nil => rfl
    | cons e l ih =>
      obtain ⟨k', v⟩ := e
      rw [List.map_cons]
      by_cases hk : k = k'
      · subst hk
        rw [List.dlookup_cons_eq, List.dlookup_cons_eq]
        rfl
      · rw [List.dlookup_cons_ne, List.dlookup_cons_ne, ih] <;> exact hk
  exact hentries m.entries

theorem lookup_insert_eq_ite (k k' : K) (v : V) :
    (m.insert k v).lookup k' = if k' = k then some v else m.lookup k' := by
  split_ifs with h
  · exact h ▸ AList.lookup_insert m
  · exact AList.lookup_insert_ne h

theorem lookup_erase_eq_ite (k k' : K) :
    (m.erase k).lookup k' = if k' = k then none else m.lookup k' := by
  split_ifs with h
  · exact h ▸ AList.lookup_erase k m
  · exact AList.lookup_erase_ne h

theorem lookup_of_lookup_retain {m : HashMap K V} {p : K → V → Bool} {k : K} {v : V}
    (h : (m.retain p).lookup k = some v) : m.lookup k = some v := by
  rw [← Option.mem_def, AList.mem_lookup_iff] at h ⊢
  exact List.mem_of_mem_filter h

/-- `*map.entry(k).or_default()` updated by `f`, with the default `d`. -/
def upsert (d : V) (k : K) (f : V → V) : HashMap K V :=
  m.insert k (f ((m.lookup k).getD d))

/-- Updates one after the other: the value of a key is its old value after the updates of that
key, in order. -/
theorem getD_lookup_foldl_upsert {E : Type*} (d : V) (key : E → K) (f : E → V → V) (l : List E)
    (k : K) : ((l.foldl (fun m e => upsert m d (key e) (f e)) m).lookup k).getD d =
      (l.filter fun e => key e = k).foldl (fun v e => f e v) ((m.lookup k).getD d) := by
  induction l generalizing m with
  | nil => rfl
  | cons e l ih =>
    rw [List.foldl_cons, ih, upsert, lookup_insert_eq_ite]
    by_cases hk : key e = k
    · subst hk
      simp
    · simp [hk, Ne.symm hk]

/-- Updates one after the other create the entries of the keys updated. -/
theorem isSome_lookup_foldl_upsert {E : Type*} (d : V) (key : E → K) (f : E → V → V) (l : List E)
    (k : K) : ((l.foldl (fun m e => upsert m d (key e) (f e)) m).lookup k).isSome = true ↔
      (m.lookup k).isSome = true ∨ ∃ e ∈ l, key e = k := by
  induction l generalizing m with
  | nil => simp
  | cons e l ih =>
    rw [List.foldl_cons, ih, upsert, lookup_insert_eq_ite]
    by_cases hk : key e = k
    · simp [hk]
    · simp [hk, Ne.symm hk]

/-- Insertions one after the other: a value found is one of them or was there before. -/
theorem mem_of_lookup_foldl_insert {l : List (K × V)} {k : K} {v : V}
    (h : (l.foldl (fun m e => m.insert e.1 e.2) m).lookup k = some v) :
    (k, v) ∈ l ∨ m.lookup k = some v := by
  induction l generalizing m with
  | nil => exact .inr h
  | cons e l ih =>
    obtain hmem | hlookup := ih _ h
    · exact .inl (List.mem_cons_of_mem e hmem)
    · rw [lookup_insert_eq_ite] at hlookup
      split_ifs at hlookup with hk
      · obtain rfl : e.2 = v := Option.some.inj hlookup
        exact .inl (hk ▸ List.mem_cons_self)
      · exact .inr hlookup

/-- Insertions one after the other leave only the keys without a value that had none. -/
theorem lookup_foldl_insert_eq_none_iff (l : List (K × V)) (k : K) :
    (l.foldl (fun m e => m.insert e.1 e.2) m).lookup k = none ↔
      m.lookup k = none ∧ ∀ e ∈ l, e.1 ≠ k := by
  induction l generalizing m with
  | nil => simp
  | cons e l ih =>
    rw [List.foldl_cons, ih, lookup_insert_eq_ite, List.forall_mem_cons]
    by_cases hk : k = e.1
    · simp [hk]
    · simp [hk, Ne.symm hk]

theorem mem_toList {k : K} {v : V} : (k, v) ∈ m.toList ↔ m.lookup k = some v := by
  rw [← Option.mem_def, AList.mem_lookup_iff, toList, List.mem_map]
  constructor
  · rintro ⟨⟨k', v'⟩, hmem, heq⟩
    obtain ⟨rfl, rfl⟩ := Prod.mk.inj heq
    exact hmem
  · exact fun h => ⟨⟨k, v⟩, h, rfl⟩

/-! ### The number of entries -/

section Size

variable {m : HashMap K V} {k : K}

theorem size_erase_of_lookup_eq_none (h : m.lookup k = none) : size (m.erase k) = m.size := by
  have hk : k ∉ m.entries.keys := AList.lookup_eq_none.mp h
  change (List.kerase k m.entries).length = m.entries.length
  rw [List.kerase_of_notMem_keys hk]

theorem size_erase_of_isSome_lookup (h : (m.lookup k).isSome = true) :
    size (m.erase k) + 1 = m.size := by
  have hk : k ∈ m.entries.keys := AList.lookup_isSome.mp h
  obtain ⟨v, before, after, -, hentries, herase⟩ := List.exists_of_kerase hk
  change (List.kerase k m.entries).length + 1 = m.entries.length
  rw [herase, hentries, List.length_append, List.length_append, List.length_cons]
  rfl

theorem size_erase_le (m : HashMap K V) (k : K) : size (m.erase k) ≤ m.size := by
  cases h : m.lookup k with
  | none => exact (size_erase_of_lookup_eq_none h).le
  | some v => exact (Nat.le_succ _).trans (size_erase_of_isSome_lookup (by rw [h]; rfl)).le

theorem size_insert (m : HashMap K V) (k : K) (v : V) :
    size (m.insert k v) = size (m.erase k) + 1 := rfl

end Size

/-! ### Maps in another order -/

section Order

variable {R : V → V → Prop} {m m' : HashMap K V} {k : K} {v v' : V}

/-- The same entries. -/
def SameEntries (m m' : HashMap K V) : Prop :=
  ∀ k, m.lookup k = m'.lookup k

/-- The same keys, with values related by `R`. -/
def Rel (R : V → V → Prop) (m m' : HashMap K V) : Prop :=
  ∀ k, Option.Rel R (m.lookup k) (m'.lookup k)

theorem Rel.refl (hR : ∀ v, R v v) (m : HashMap K V) : Rel R m m := by
  intro k
  cases m.lookup k with
  | none => exact .none
  | some v => exact .some (hR v)

theorem SameEntries.rel (h : SameEntries m m') : Rel Eq m m' := by
  intro k
  rw [h k]
  exact Rel.refl (fun _ => rfl) m' k

theorem Rel.sameEntries (h : Rel Eq m m') : SameEntries m m' := by
  intro k
  have hk := h k
  generalize m.lookup k = o at hk
  generalize m'.lookup k = o' at hk
  cases hk with
  | none => rfl
  | some heq => rw [heq]

theorem Rel.exists_of_lookup (h : Rel R m m') (hv : m.lookup k = some v) :
    ∃ v', m'.lookup k = some v' ∧ R v v' := by
  have hk := h k
  rw [hv] at hk
  generalize m'.lookup k = o at hk
  cases hk with
  | some hR => exact ⟨_, rfl, hR⟩

theorem Rel.symm (h : Rel R m m') : Rel (fun v v' => R v' v) m' m := by
  intro k
  have hk := h k
  generalize m.lookup k = o at hk
  generalize m'.lookup k = o' at hk
  cases hk with
  | none => exact .none
  | some hR => exact .some hR

/-- The value of a key replaced by a related one, and the key moved to the front. -/
theorem rel_insert (hR : ∀ v, R v v) (hv : m.lookup k = some v) (hv' : R v v') :
    Rel R m (m.insert k v') := by
  intro k'
  rw [lookup_insert_eq_ite]
  split_ifs with hk
  · rw [hk, hv]
    exact .some hv'
  · exact Rel.refl hR m k'

theorem sameEntries_insert (hv : m.lookup k = some v) : SameEntries m (m.insert k v) := by
  intro k'
  rw [lookup_insert_eq_ite]
  split_ifs with hk
  · rw [hk, hv]
  · rfl

theorem toList_insert (m : HashMap K V) (k : K) (v : V) :
    toList (m.insert k v) = (k, v) :: toList (m.erase k) := rfl

theorem perm_insert (m : HashMap K V) (k : K) (v : V) :
    ((m.erase k).entries ++ [(⟨k, v⟩ : Σ _ : K, V)]).Perm (m.insert k v).entries := by
  rw [AList.entries_insert]
  exact List.perm_append_singleton _ _

/-- The map with an entry added or moved to the end. -/
def pushBack (m : HashMap K V) (k : K) (v : V) : HashMap K V where
  entries := (m.erase k).entries ++ [⟨k, v⟩]
  nodupKeys := (List.perm_nodupKeys (perm_insert m k v)).mpr (m.insert k v).nodupKeys

theorem toList_pushBack (m : HashMap K V) (k : K) (v : V) :
    toList (pushBack m k v) = toList (m.erase k) ++ [(k, v)] := by
  rw [toList, pushBack, List.map_append]
  rfl

theorem sameEntries_pushBack (hv : m.lookup k = some v) : SameEntries m (pushBack m k v) := by
  intro k'
  have hperm : (pushBack m k v).entries.Perm (m.insert k v).entries := perm_insert m k v
  rw [AList.perm_lookup hperm]
  exact sameEntries_insert hv k'

end Order

end HashMap

end XtpRs.Lib
