import XtpRs.Lib.HashMap

/-!
# Caches with a time to live

A cache maps keys to a value and the clock reading of its insertion. A lookup serves an entry
while its age is below the time to live and removes it afterwards; an insertion into a cache that
has reached its capacity first drops every entry that is too old.

Clock readings are arguments: each operation that reads the clock takes the reading, and an age is
a truncated difference, so nothing is assumed about the order of readings.

## Main definitions

* `TtlCache.get`, `TtlCache.insertPruned`: lookup and insertion.
* `TtlCache.All`: every entry has a property; `TtlCache.Sound`: it holds the value of a fixed
  function at its key.
* `TtlCache.HasRoom`: an insertion does not exceed the capacity.

## Main results

* `TtlCache.All.get_fst`, `TtlCache.All.get_snd`, `TtlCache.All.insertPruned`: what is served has
  the property, and the operations keep it, at whatever readings of the clock.
* `TtlCache.size_insertPruned_le_iff`: pruning drops old entries only, so an insertion keeps to the
  capacity exactly where there is room for it.
-/

namespace XtpRs.Lib

variable {K V : Type*}

/-- A cache of values with the clock readings of their insertion. -/
abbrev TtlCache (K V : Type*) := HashMap K (V × ℕ)

namespace TtlCache

variable [DecidableEq K]

/-- The value of the key while its age at the reading `now` is below `ttl`, and the cache after
the lookup: an entry that is too old is removed. -/
def get (m : TtlCache K V) (ttl now : ℕ) (k : K) : Option V × TtlCache K V :=
  match m.lookup k with
  | some (v, inserted) => if now - inserted < ttl then (some v, m) else (none, m.erase k)
  | none => (none, m)

/-- A cache with `max` entries or more drops those that are too old; `clock` is the reading made
at each of them. -/
def prune (m : TtlCache K V) (max ttl : ℕ) (clock : K → ℕ) : TtlCache K V :=
  if max ≤ m.size then m.retain fun k e => clock k - e.2 < ttl else m

/-- Insertion at the reading `now`, after pruning. -/
def insertPruned (m : TtlCache K V) (max ttl : ℕ) (clock : K → ℕ) (now : ℕ) (k : K) (v : V) :
    TtlCache K V :=
  (m.prune max ttl clock).insert k (v, now)

/-- Every entry has a property of its key, its value and the clock reading of its insertion. -/
def All (P : K → V → ℕ → Prop) (m : TtlCache K V) : Prop :=
  ∀ k v inserted, m.lookup k = some (v, inserted) → P k v inserted

namespace All

variable {P : K → V → ℕ → Prop} {m : TtlCache K V} {ttl now : ℕ} {k : K} {v : V}

theorem empty (P : K → V → ℕ → Prop) : All P (∅ : TtlCache K V) := by
  intro k v inserted h
  cases h

/-- A value that is served has an entry, which is young enough. -/
theorem get_fst (h : All P m) (hget : (m.get ttl now k).1 = some v) :
    ∃ inserted, P k v inserted ∧ now - inserted < ttl := by
  unfold get at hget
  split at hget
  · rename_i w inserted hk
    split_ifs at hget with hage
    obtain rfl : w = v := Option.some.inj hget
    exact ⟨inserted, h k w inserted hk, hage⟩
  · cases hget

theorem erase (h : All P m) (k : K) : All P (m.erase k) := by
  intro k' v inserted hk'
  rw [HashMap.lookup_erase_eq_ite] at hk'
  split_ifs at hk'
  exact h k' v inserted hk'

theorem get_snd (h : All P m) : All P (m.get ttl now k).2 := by
  unfold get
  split
  · split_ifs with hage
    · exact h
    · exact h.erase k
  · exact h

theorem prune (h : All P m) {max : ℕ} {clock : K → ℕ} : All P (m.prune max ttl clock) := by
  unfold TtlCache.prune
  split_ifs with hmax
  · intro k v inserted hk
    exact h k v inserted (HashMap.lookup_of_lookup_retain hk)
  · exact h

theorem insertPruned (h : All P m) {max : ℕ} {clock : K → ℕ} (hv : P k v now) :
    All P (m.insertPruned max ttl clock now k v) := by
  intro k' v' inserted hk'
  unfold TtlCache.insertPruned at hk'
  rw [HashMap.lookup_insert_eq_ite] at hk'
  split_ifs at hk' with hkey
  · cases hk'
    exact hkey ▸ hv
  · exact h.prune k' v' inserted hk'

theorem mono {Q : K → V → ℕ → Prop} (h : All P m) (hPQ : ∀ k v n, P k v n → Q k v n) : All Q m :=
  fun k v inserted hk => hPQ k v inserted (h k v inserted hk)

end All

/-- Every entry holds the value of `f` at its key. -/
def Sound (f : K → V) (m : TtlCache K V) : Prop :=
  ∀ k v inserted, m.lookup k = some (v, inserted) → v = f k

namespace Sound

variable {f : K → V} {m : TtlCache K V} {ttl now : ℕ} {k : K}

theorem all (h : Sound f m) : All (fun k v _ => v = f k) m := h

theorem empty (f : K → V) : Sound f (∅ : TtlCache K V) := All.empty _

/-- A value served by a sound cache is that of the function. -/
theorem get_fst (h : Sound f m) {v : V} (hget : (m.get ttl now k).1 = some v) : v = f k := by
  obtain ⟨inserted, hv, -⟩ := h.all.get_fst hget
  exact hv

theorem get_snd (h : Sound f m) : Sound f (m.get ttl now k).2 := h.all.get_snd

theorem insertPruned (h : Sound f m) {max : ℕ} {clock : K → ℕ} :
    Sound f (m.insertPruned max ttl clock now k (f k)) :=
  h.all.insertPruned rfl

end Sound

/-! ### Capacity -/

variable {m : TtlCache K V} {max ttl now : ℕ} {clock : K → ℕ} {k : K} {v : V}

/-- An insertion of the key finds room: the key has an entry, the cache is not full, or one of its
entries is too old when it is pruned. -/
def HasRoom (m : TtlCache K V) (max ttl : ℕ) (clock : K → ℕ) (k : K) : Prop :=
  (m.lookup k).isSome = true ∨ m.size < max ∨ ∃ e ∈ m.toList, ttl ≤ clock e.1 - e.2.2

instance (m : TtlCache K V) (max ttl : ℕ) (clock : K → ℕ) (k : K) :
    Decidable (m.HasRoom max ttl clock k) :=
  inferInstanceAs (Decidable (_ ∨ _ ∨ _))

omit [DecidableEq K] in
theorem size_prune_le : (m.prune max ttl clock).size ≤ m.size := by
  unfold prune
  split_ifs
  · exact HashMap.size_retain_le _ _
  · exact le_rfl

omit [DecidableEq K] in
/-- A full cache with an entry that is too old is pruned to one that is not full. -/
theorem size_prune_lt_of_old (h : m.size ≤ max) {e : K × V × ℕ} (he : e ∈ m.toList)
    (hold : ttl ≤ clock e.1 - e.2.2) : (m.prune max ttl clock).size < max := by
  unfold prune
  split_ifs with hfull
  · have hlt : (m.retain fun k e => clock k - e.2 < ttl).size < m.size :=
      HashMap.size_retain_lt he (by simpa using hold)
    exact hlt.trans_le h
  · exact not_le.mp hfull

omit [DecidableEq K] in
/-- A cache without an entry that is too old is left as it is. -/
theorem prune_eq_self (h : ∀ e ∈ m.toList, clock e.1 - e.2.2 < ttl) :
    m.prune max ttl clock = m := by
  unfold prune
  split_ifs
  · exact HashMap.retain_eq_self fun e he => by simpa using h e he
  · rfl

/-- The entry of a key is pruned, which makes a cache that keeps to its capacity smaller, or is
replaced by the insertion. -/
theorem size_insertPruned_le_of_isSome (h : m.size ≤ max) (hk : (m.lookup k).isSome = true) :
    (m.insertPruned max ttl clock now k v).size ≤ max := by
  rw [insertPruned, HashMap.size_insert]
  cases hpruned : (m.prune max ttl clock).lookup k with
  | some e =>
    rw [HashMap.size_erase_of_isSome_lookup (by rw [hpruned]; rfl)]
    exact size_prune_le.trans h
  | none =>
    rw [HashMap.size_erase_of_lookup_eq_none hpruned]
    obtain ⟨e, he⟩ := Option.isSome_iff_exists.mp hk
    by_contra hfull
    have hsame : m.prune max ttl clock = m := by
      refine prune_eq_self fun e' he' => ?_
      by_contra hold
      have hlt := size_prune_lt_of_old h he' (not_lt.mp hold)
      omega
    rw [hsame, he] at hpruned
    cases hpruned

theorem size_insertPruned_le_of_prune_lt (h : (m.prune max ttl clock).size < max) :
    (m.insertPruned max ttl clock now k v).size ≤ max := by
  rw [insertPruned, HashMap.size_insert]
  exact (Nat.succ_le_succ (HashMap.size_erase_le _ _)).trans h

/-- **Capacity.** An insertion into a cache that keeps to its capacity leaves one that does, exactly
where there is room. -/
theorem size_insertPruned_le_iff (h : m.size ≤ max) :
    (m.insertPruned max ttl clock now k v).size ≤ max ↔ m.HasRoom max ttl clock k := by
  constructor
  · intro hle
    by_contra hroom
    simp only [HasRoom, not_or, not_exists, not_and, not_lt, not_le, Bool.not_eq_true] at hroom
    obtain ⟨hk, hfull, hyoung⟩ := hroom
    rw [Option.isSome_eq_false_iff, Option.isNone_iff_eq_none] at hk
    rw [insertPruned, prune_eq_self hyoung, HashMap.size_insert,
      HashMap.size_erase_of_lookup_eq_none hk] at hle
    omega
  · rintro (hk | hlt | ⟨e, he, hold⟩)
    · exact size_insertPruned_le_of_isSome h hk
    · exact size_insertPruned_le_of_prune_lt (size_prune_le.trans_lt hlt)
    · exact size_insertPruned_le_of_prune_lt (size_prune_lt_of_old h he hold)

theorem size_get_le : (m.get ttl now k).2.size ≤ m.size := by
  unfold get
  split
  · split_ifs
    · exact le_rfl
    · exact HashMap.size_erase_le _ _
  · exact le_rfl

/-- A lookup that misses leaves as much room for its key as there was before. -/
theorem hasRoom_get_snd_iff (h : m.size ≤ max) (hmiss : (m.get ttl now k).1 = none) :
    (m.get ttl now k).2.HasRoom max ttl clock k ↔ m.HasRoom max ttl clock k := by
  unfold get at hmiss ⊢
  cases hk : m.lookup k with
  | none => rfl
  | some e =>
    rw [hk] at hmiss
    dsimp only at hmiss ⊢
    split_ifs at hmiss ⊢
    have hsize := HashMap.size_erase_of_isSome_lookup (m := m) (k := k) (by rw [hk]; rfl)
    have hlt : HashMap.size (m.erase k) < max := by omega
    exact iff_of_true (.inr (.inl hlt)) (.inl (by rw [hk]; rfl))

end TtlCache

end XtpRs.Lib
