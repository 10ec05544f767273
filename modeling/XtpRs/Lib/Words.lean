import Mathlib

/-!
# Words of a text

`words p t` are the words of the text `t` between the separators `p`: the longest parts without a
separator, the empty ones dropped. A list of words is kept in one text in two ways, with a
separator in front of each (`prefixed`) or between them (`List.intercalate`); both give the words
back, and whether a word is in the list can be seen on the text.

## Main results

* `words_append_cons`: the words around a separator.
* `words_map`: a translation of the separators keeps the words.
* `infix_prefixed_iff`: a word is in the list if it stands in the text between two separators.
* `words_intercalate`: the words read back.
* `foldl_addWord`: words collected in a text.
-/

namespace XtpRs.Lib

variable {α : Type*} {p : α → Bool}

section Words

/-- The words of a text between separators. -/
def words (p : α → Bool) (t : List α) : List (List α) :=
  (t.splitOnP p).filter fun w => !w.isEmpty

theorem words_nil : words p [] = [] := by
  rw [words, List.splitOnP_nil]
  rfl

theorem words_append_cons {c : α} (hc : p c) (s t : List α) :
    words p (s ++ c :: t) = words p s ++ words p t := by
  rw [words, List.splitOnP_append_cons s t hc, List.filter_append]
  rfl

theorem words_cons {c : α} (hc : p c) (t : List α) : words p (c :: t) = words p t := by
  have h := words_append_cons hc [] t
  rwa [words_nil, List.nil_append, List.nil_append] at h

theorem words_of_forall {w : List α} (hne : w ≠ []) (hw : ∀ c ∈ w, p c = false) :
    words p w = [w] := by
  rw [words, List.splitOnP_eq_singleton hw]
  simpa using hne

theorem forall_of_mem_splitOnP {t w : List α} (hw : w ∈ t.splitOnP p) :
    ∀ c ∈ w, p c = false := by
  induction t generalizing w with
  | nil =>
      rw [List.splitOnP_nil, List.mem_singleton] at hw
      simp [hw]
  | cons x t ih =>
      obtain ⟨r, rs, hrs⟩ := List.exists_cons_of_ne_nil (List.splitOnP_ne_nil p t)
      rw [List.splitOnP_cons_eq_if_modifyHead, hrs, List.modifyHead_cons] at hw
      rw [hrs] at ih
      split_ifs at hw with hx
      · obtain rfl | hw := List.mem_cons.mp hw
        · simp
        · exact ih hw
      · obtain rfl | hw := List.mem_cons.mp hw
        · intro c hc
          obtain rfl | hc := List.mem_cons.mp hc
          · simpa using hx
          · exact ih List.mem_cons_self c hc
        · exact ih (List.mem_cons_of_mem _ hw)

/-- A word is not empty and has no separator. -/
theorem of_mem_words {t w : List α} (hw : w ∈ words p t) : w ≠ [] ∧ ∀ c ∈ w, p c = false := by
  obtain ⟨hmem, hne⟩ := List.mem_filter.mp hw
  exact ⟨by simpa using hne, forall_of_mem_splitOnP hmem⟩

theorem splitOnP_congr {q : α → Bool} {t : List α} (h : ∀ c ∈ t, p c = q c) :
    t.splitOnP p = t.splitOnP q := by
  induction t with
  | nil => rfl
  | cons c t ih =>
      obtain ⟨hc, ht⟩ := List.forall_mem_cons.mp h
      rw [List.splitOnP_cons_eq_if_modifyHead, List.splitOnP_cons_eq_if_modifyHead, ih ht, hc]

theorem words_congr {q : α → Bool} {t : List α} (h : ∀ c ∈ t, p c = q c) :
    words p t = words q t := by
  rw [words, words, splitOnP_congr h]

theorem length_splitOnP (t : List α) : (t.splitOnP p).length = t.countP p + 1 := by
  induction t with
  | nil => rfl
  | cons c t ih =>
      rw [List.splitOnP_cons_eq_if_modifyHead]
      split_ifs with hc
      · rw [List.length_cons, ih, List.countP_cons_of_pos hc]
      · rw [List.length_modifyHead, ih, List.countP_cons_of_neg hc]

/-- There is a word between every two separators if there is one word more than separators. -/
theorem words_eq_splitOnP_of_length {t : List α} (h : (words p t).length = t.countP p + 1) :
    words p t = t.splitOnP p := by
  rw [← length_splitOnP (p := p), words] at h
  exact List.filter_eq_self.mpr (List.length_filter_eq_length_iff.mp h)

/-- Separators at the end of a text do not matter. -/
theorem words_rdropWhile {q : α → Bool} (hq : ∀ c, q c → p c) (t : List α) :
    words p (t.rdropWhile q) = words p t := by
  induction t using List.reverseRecOn with
  | nil => rfl
  | append_singleton t c ih =>
      by_cases hc : q c
      · rw [List.rdropWhile_concat_pos _ _ _ hc, ih, words_append_cons (hq c hc), words_nil,
          List.append_nil]
      · rw [List.rdropWhile_concat_neg _ _ _ hc]

theorem splitOnP_map {β : Type*} {q : β → Bool} (f : α → β) (t : List α)
    (hf : ∀ c, q (f c) = p c) :
    (t.map f).splitOnP q = (t.splitOnP p).map (List.map f) := by
  induction t with
  | nil => rfl
  | cons c t ih =>
      rw [List.map_cons, List.splitOnP_cons_eq_if_modifyHead, List.splitOnP_cons_eq_if_modifyHead,
        ih, hf]
      split_ifs
      · rfl
      · cases List.splitOnP p t <;> rfl

/-- A translation that makes all separators equal and keeps the other characters keeps the
words. -/
theorem words_map {q : α → Bool} (f : α → α) (t : List α) (hf : ∀ c, q (f c) = p c)
    (hkeep : ∀ c, p c = false → f c = c) : words q (t.map f) = words p t := by
  have hempty : (fun w : List α => !w.isEmpty) ∘ List.map f = fun w => !w.isEmpty := by
    funext w
    cases w <;> rfl
  have hword : ∀ w ∈ words p t, w.map f = id w := fun w hw => by
    rw [List.map_congr_left fun c hc => hkeep c ((of_mem_words hw).2 c hc), List.map_id', id]
  rw [words, splitOnP_map f t hf, List.filter_map, hempty]
  exact (List.map_congr_left hword).trans (List.map_id _)

end Words

section Texts

variable {sep : α} {l : List (List α)}

/-- The list in one text, with a separator in front of each word. -/
def prefixed (sep : α) (l : List (List α)) : List α :=
  l.flatMap (sep :: ·)

theorem prefixed_nil : prefixed sep [] = [] :=
  rfl

theorem prefixed_cons (w : List α) : prefixed sep (w :: l) = sep :: (w ++ prefixed sep l) :=
  rfl

theorem prefixed_append (l m : List (List α)) :
    prefixed sep (l ++ m) = prefixed sep l ++ prefixed sep m :=
  List.flatMap_append

theorem prefixed_concat (w : List α) : prefixed sep (l ++ [w]) = prefixed sep l ++ sep :: w := by
  rw [prefixed_append, prefixed_cons, prefixed_nil, List.append_nil]

/-- Without its first separator the text has the separators between the words. -/
theorem prefixed_cons_eq_intercalate (w : List α) :
    prefixed sep (w :: l) = sep :: [sep].intercalate (w :: l) := by
  induction l generalizing w with
  | nil => simp [prefixed]
  | cons v l ih =>
      rw [prefixed_cons, ih, List.intercalate_cons_cons]
      simp

theorem of_mem_intercalate {c : α} (hc : c ∈ [sep].intercalate l) :
    c = sep ∨ ∃ w ∈ l, c ∈ w := by
  induction l with
  | nil => exact absurd hc (by simp)
  | cons w l ih =>
      cases l with
      | nil => exact .inr ⟨w, List.mem_cons_self, by simpa using hc⟩
      | cons v l =>
          rw [List.intercalate_cons_cons, List.mem_append, List.mem_append,
            List.mem_singleton] at hc
          obtain (hc | hc) | hc := hc
          · exact .inr ⟨w, List.mem_cons_self, hc⟩
          · exact .inl hc
          · exact (ih hc).imp_right fun ⟨u, hu, hcu⟩ => ⟨u, List.mem_cons_of_mem _ hu, hcu⟩

/-- A translation that keeps the words changes the separators between them. -/
theorem mem_intercalate {w : List α} (hw : w ∈ l) {c : α} (hc : c ∈ w) :
    c ∈ [sep].intercalate l := by
  induction l with
  | nil => cases hw
  | cons v l ih =>
      cases l with
      | nil => rwa [List.intercalate_singleton, ← List.mem_singleton.mp hw]
      | cons u l =>
          rw [List.intercalate_cons_cons, List.mem_append, List.mem_append]
          obtain rfl | hw := List.mem_cons.mp hw
          · exact .inl (.inl hc)
          · exact .inr (ih hw)

theorem intercalate_concat (hl : l ≠ []) (w : List α) :
    [sep].intercalate (l ++ [w]) = [sep].intercalate l ++ sep :: w := by
  obtain ⟨v, l, rfl⟩ := List.exists_cons_of_ne_nil hl
  have h : prefixed sep (v :: l ++ [w]) = prefixed sep (v :: l) ++ sep :: w := prefixed_concat w
  rw [List.cons_append, prefixed_cons_eq_intercalate, prefixed_cons_eq_intercalate] at h
  exact (List.cons.inj h).2

theorem map_intercalate {f : α → α} (hl : ∀ w ∈ l, ∀ c ∈ w, f c = c) :
    ([sep].intercalate l).map f = [f sep].intercalate l := by
  induction l with
  | nil => rfl
  | cons w l ih =>
      have hw : w.map f = w :=
        (List.map_congr_left (hl w List.mem_cons_self)).trans (List.map_id' w)
      cases l with
      | nil => simp [hw]
      | cons v l =>
          rw [List.intercalate_cons_cons, List.intercalate_cons_cons, List.map_append,
            List.map_append, hw, ih fun u hu => hl u (List.mem_cons_of_mem _ hu)]
          rfl

/-- What stands behind a word in the text starts with a separator. -/
theorem prefixed_append_singleton (sep : α) (l : List (List α)) :
    ∃ t, prefixed sep l ++ [sep] = sep :: t := by
  cases l with
  | nil => exact ⟨[], rfl⟩
  | cons w l => exact ⟨w ++ prefixed sep l ++ [sep], rfl⟩

/-- Every element of the list is a word, and no separator stands in it. -/
def AreWords (p : α → Bool) (l : List (List α)) : Prop :=
  ∀ w ∈ l, w ≠ [] ∧ ∀ c ∈ w, p c = false

theorem words_append_prefixed (hsep : p sep) (s : List α) (l : List (List α)) :
    words p (s ++ prefixed sep l) = words p s ++ words p (prefixed sep l) := by
  cases l with
  | nil => rw [prefixed_nil, List.append_nil, words_nil, List.append_nil]
  | cons w l => rw [prefixed_cons, words_append_cons hsep, words_cons hsep]

theorem words_prefixed (hsep : p sep) (hl : AreWords p l) : words p (prefixed sep l) = l := by
  induction l with
  | nil => exact words_nil
  | cons w l ih =>
      obtain ⟨hne, hw⟩ := hl w List.mem_cons_self
      rw [prefixed_cons, words_cons hsep, words_append_prefixed hsep, words_of_forall hne hw,
        ih fun v hv => hl v (List.mem_cons_of_mem _ hv), List.singleton_append]

theorem words_intercalate (hsep : p sep) (hl : AreWords p l) :
    words p ([sep].intercalate l) = l := by
  cases l with
  | nil => exact words_nil
  | cons w l => rw [← words_cons hsep, ← prefixed_cons_eq_intercalate, words_prefixed hsep hl]

/-- A word is in the list if it stands in the text between two separators. -/
theorem infix_prefixed_iff (hsep : p sep) (hl : AreWords p l) {w : List α} (hne : w ≠ [])
    (hw : ∀ c ∈ w, p c = false) :
    sep :: (w ++ [sep]) <:+: sep :: (prefixed sep l ++ [sep]) ↔ w ∈ l := by
  constructor
  · rintro ⟨s, t, hst⟩
    have hwords : words p (s ++ (sep :: (w ++ [sep])) ++ t) = l := by
      rw [hst, words_cons hsep, words_append_cons hsep, words_nil, List.append_nil,
        words_prefixed hsep hl]
    have hsplit : s ++ (sep :: (w ++ [sep])) ++ t = s ++ sep :: (w ++ sep :: t) := by simp
    rw [hsplit, words_append_cons hsep, words_append_cons hsep, words_of_forall hne hw] at hwords
    rw [← hwords]
    simp
  · intro hmem
    obtain ⟨a, b, rfl⟩ := List.append_of_mem hmem
    obtain ⟨t, ht⟩ := prefixed_append_singleton sep b
    refine ⟨sep :: prefixed sep a, t, ?_⟩
    have hb : prefixed sep (a ++ w :: b) ++ [sep] = prefixed sep a ++ sep :: (w ++ sep :: t) := by
      rw [prefixed_append, prefixed_cons, ← ht]
      simp
    rw [hb]
    simp

theorem eraseDups_concat [BEq α] [LawfulBEq α] (l : List α) (a : α) :
    (l ++ [a]).eraseDups = if a ∈ l then l.eraseDups else l.eraseDups ++ [a] := by
  rw [List.eraseDups_append]
  split_ifs with h <;> simp [List.removeAll, h, List.eraseDups_cons]

theorem nodup_eraseDups [BEq α] [LawfulBEq α] (l : List α) : l.eraseDups.Nodup := by
  induction l using List.reverseRecOn with
  | nil => exact List.nodup_nil
  | append_singleton l a ih =>
      rw [eraseDups_concat]
      split_ifs with h
      · exact ih
      · exact List.nodup_append.mpr ⟨ih, List.nodup_singleton a, fun b hb c hc => by
          rintro rfl
          exact h (List.mem_singleton.mp hc ▸ List.mem_eraseDups.mp hb)⟩

theorem eraseDups_sublist [BEq α] [LawfulBEq α] (l : List α) : l.eraseDups.Sublist l := by
  induction l using List.reverseRecOn with
  | nil => exact .slnil
  | append_singleton l a ih =>
      rw [eraseDups_concat]
      split_ifs
      · exact ih.trans (List.sublist_append_left l [a])
      · exact ih.append (.refl [a])

/-- A word that is wanted is put behind the words of the text, unless it is one of them. -/
def addWord [DecidableEq α] (sep : α) (wanted : List α → Bool) (text w : List α) : List α :=
  if wanted w ∧ ¬sep :: (w ++ [sep]) <:+: sep :: (text ++ [sep]) then text ++ sep :: w else text

/-- The wanted words are in the text, each at its first place. -/
theorem foldl_addWord [DecidableEq α] (hsep : p sep) {wanted : List α → Bool}
    {ws : List (List α)} (hws : ∀ w ∈ ws, wanted w → w ≠ [] ∧ ∀ c ∈ w, p c = false) :
    ws.foldl (addWord sep wanted) [] = prefixed sep (ws.filter wanted).eraseDups := by
  induction ws using List.reverseRecOn with
  | nil => rfl
  | append_singleton ws w ih =>
      have hold : AreWords p (ws.filter wanted).eraseDups := fun v hv => by
        obtain ⟨hmem, hv⟩ := List.mem_filter.mp (List.mem_eraseDups.mp hv)
        exact hws v (List.mem_append_left _ hmem) hv
      rw [List.foldl_append, ih fun v hv => hws v (List.mem_append_left _ hv), List.foldl_cons,
        List.foldl_nil, addWord, List.filter_append]
      by_cases hw : wanted w
      · obtain ⟨hne, hword⟩ := hws w (by simp) hw
        have hmem := infix_prefixed_iff hsep hold hne hword
        rw [List.mem_eraseDups] at hmem
        rw [List.filter_cons_of_pos hw, List.filter_nil, eraseDups_concat]
        by_cases hin : w ∈ ws.filter wanted
        · rw [if_neg fun h => h.2 (hmem.mpr hin), if_pos hin]
        · rw [if_pos ⟨hw, fun h => hin (hmem.mp h)⟩, if_neg hin, prefixed_concat]
      · rw [if_neg fun h => hw h.1, List.filter_cons_of_neg hw, List.filter_nil, List.append_nil]

end Texts

end XtpRs.Lib
