import Mathlib

/-!
# Positional numbers

`bigEndian b l` is the number with the digits `l` in base `b`, the greatest place first. Digit lists
of one length are ordered as their numbers (`bigEndian_lt_iff`), and digits can be taken together to
digits of a power of the base (`bigEndian_flatMap`). The lists of one length that begin alike are an
interval in this order (`prefix_iff_between`).
-/

namespace XtpRs.Lib

/-- The number with the given digits, the greatest place first. -/
def bigEndian (b : ℕ) (l : List ℕ) : ℕ :=
  l.foldl (fun v d => v * b + d) 0

variable {b : ℕ}

theorem foldl_bigEndian (v : ℕ) (l : List ℕ) :
    l.foldl (fun v d => v * b + d) v = v * b ^ l.length + bigEndian b l := by
  induction l generalizing v with
  | nil => simp [bigEndian]
  | cons d l ih =>
      have hcons : bigEndian b (d :: l) = (0 * b + d) * b ^ l.length + bigEndian b l := ih _
      rw [List.foldl_cons, ih, hcons, List.length_cons]
      ring

theorem bigEndian_cons (d : ℕ) (l : List ℕ) :
    bigEndian b (d :: l) = d * b ^ l.length + bigEndian b l := by
  rw [bigEndian, List.foldl_cons, foldl_bigEndian, zero_mul, zero_add]

theorem bigEndian_append (l m : List ℕ) :
    bigEndian b (l ++ m) = bigEndian b l * b ^ m.length + bigEndian b m := by
  rw [bigEndian, List.foldl_append, foldl_bigEndian, ← bigEndian]

theorem bigEndian_replicate_zero (n : ℕ) : bigEndian b (List.replicate n 0) = 0 := by
  induction n with
  | zero => rfl
  | succ n ih => rw [List.replicate_succ, bigEndian_cons, ih, zero_mul]

theorem bigEndian_lt_pow {l : List ℕ} (hl : ∀ d ∈ l, d < b) : bigEndian b l < b ^ l.length := by
  induction l with
  | nil => simp [bigEndian]
  | cons d l ih =>
      have hd : d + 1 ≤ b := hl d List.mem_cons_self
      have hlt := ih fun e he => hl e (List.mem_cons_of_mem _ he)
      calc bigEndian b (d :: l) = d * b ^ l.length + bigEndian b l := bigEndian_cons d l
        _ < d * b ^ l.length + b ^ l.length := Nat.add_lt_add_left hlt _
        _ = (d + 1) * b ^ l.length := by ring
        _ ≤ b * b ^ l.length := Nat.mul_le_mul_right _ hd
        _ = b ^ (d :: l).length := by rw [List.length_cons, pow_succ']

/-- The first places decide, and the rest only if these are equal. -/
theorem mul_add_lt_mul_add_iff {n d e x y : ℕ} (hx : x < n) (hy : y < n) :
    d * n + x < e * n + y ↔ d < e ∨ d = e ∧ x < y := by
  constructor
  · intro h
    obtain hlt | rfl | hgt := lt_trichotomy d e
    · exact .inl hlt
    · exact .inr ⟨rfl, by omega⟩
    · have hmul : (e + 1) * n ≤ d * n := Nat.mul_le_mul_right n hgt
      rw [add_mul, one_mul] at hmul
      omega
  · rintro (hlt | ⟨rfl, hlt⟩)
    · have hmul : (d + 1) * n ≤ e * n := Nat.mul_le_mul_right n hlt
      rw [add_mul, one_mul] at hmul
      omega
    · omega

/-- Digit lists of one length are ordered as their numbers. -/
theorem bigEndian_lt_iff {l m : List ℕ} (hlength : l.length = m.length) (hl : ∀ d ∈ l, d < b)
    (hm : ∀ d ∈ m, d < b) : bigEndian b l < bigEndian b m ↔ l < m := by
  induction l generalizing m with
  | nil =>
      obtain rfl := List.length_eq_zero_iff.mp hlength.symm
      simp [bigEndian]
  | cons d l ih =>
      obtain ⟨e, m, rfl⟩ := List.exists_cons_of_length_eq_add_one hlength.symm
      have hlength : l.length = m.length := by simpa using hlength
      have hl' : ∀ c ∈ l, c < b := fun c hc => hl c (List.mem_cons_of_mem _ hc)
      have hm' : ∀ c ∈ m, c < b := fun c hc => hm c (List.mem_cons_of_mem _ hc)
      have hx : bigEndian b l < b ^ l.length := bigEndian_lt_pow hl'
      have hy : bigEndian b m < b ^ l.length := hlength ▸ bigEndian_lt_pow hm'
      rw [bigEndian_cons, bigEndian_cons, ← hlength, mul_add_lt_mul_add_iff hx hy,
        ih hlength hl' hm', List.cons_lt_cons_iff]

/-- Groups of digits are digits of a power of the base. -/
theorem bigEndian_flatMap {α : Type*} {n : ℕ} (digits : α → List ℕ) (l : List α)
    (hlength : ∀ a ∈ l, (digits a).length = n) :
    bigEndian b (l.flatMap digits) = bigEndian (b ^ n) (l.map fun a => bigEndian b (digits a)) := by
  induction l using List.reverseRecOn with
  | nil => rfl
  | append_singleton l a ih =>
      have ha := hlength a (by simp)
      have hl := ih fun c hc => hlength c (by simp [hc])
      rw [List.flatMap_append, List.flatMap_singleton, bigEndian_append, ha, hl, List.map_append,
        bigEndian_append]
      simp [bigEndian]

/-! ### Lists that begin alike -/

section Between

variable {α : Type*} [LinearOrder α] [BoundedOrder α]

theorem replicate_bot_le (l : List α) : List.replicate l.length ⊥ ≤ l := by
  induction l with
  | nil => exact le_rfl
  | cons x l ih =>
      rw [List.length_cons, List.replicate_succ, ← not_lt, List.cons_lt_cons_iff]
      rintro (hlt | ⟨-, hlt⟩)
      · exact not_lt_bot hlt
      · exact hlt.not_ge ih

theorem le_replicate_top (l : List α) : l ≤ List.replicate l.length ⊤ := by
  induction l with
  | nil => exact le_rfl
  | cons x l ih =>
      rw [List.length_cons, List.replicate_succ, ← not_lt, List.cons_lt_cons_iff]
      rintro (hlt | ⟨-, hlt⟩)
      · exact not_top_lt hlt
      · exact hlt.not_ge ih

/-- The lists that begin with `p` lie between `p` with the least places and `p` with the greatest
ones. -/
theorem prefix_iff_between {p l : List α} {n : ℕ} (hlength : l.length = p.length + n) :
    p <+: l ↔ p ++ List.replicate n ⊥ ≤ l ∧ l ≤ p ++ List.replicate n ⊤ := by
  induction p generalizing l with
  | nil =>
      obtain rfl : l.length = n := by simpa using hlength
      simp [replicate_bot_le, le_replicate_top]
  | cons x p ih =>
      obtain ⟨y, l, rfl⟩ := List.exists_cons_of_length_pos (l := l) (by
        rw [hlength, List.length_cons]
        omega)
      have hlength : l.length = p.length + n := by
        simp only [List.length_cons] at hlength
        omega
      rw [List.cons_prefix_cons, ih hlength, List.cons_append, List.cons_append, ← not_lt, ← not_lt,
        ← not_lt, ← not_lt, List.cons_lt_cons_iff, List.cons_lt_cons_iff]
      constructor
      · rintro ⟨rfl, hlow, hhigh⟩
        exact ⟨fun h => h.elim (lt_irrefl x) fun h => hlow h.2,
          fun h => h.elim (lt_irrefl x) fun h => hhigh h.2⟩
      · rintro ⟨hlow, hhigh⟩
        obtain rfl : x = y :=
          le_antisymm (not_lt.mp fun h => hlow (.inl h)) (not_lt.mp fun h => hhigh (.inl h))
        exact ⟨rfl, fun h => hlow (.inr ⟨rfl, h⟩), fun h => hhigh (.inr ⟨rfl, h⟩)⟩

end Between

end XtpRs.Lib
