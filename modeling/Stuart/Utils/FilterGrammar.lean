/-
The grammar of topic filters.

A filter is a nonempty string.  Each of its levels is free of wildcard characters, or it is a
single `+`, or it is a single `#` and the last one.  `checkSubscribeTopic` does not go through the
levels: it looks where the first `#` stands, and at the length of the words of `split`, which are
the levels without the trailing empty ones.  A `#` that is the last character of the string stands
in the last level, and the levels that `split` drops are empty, so the two come to the same
(`checkSubscribeTopic_iff`).
-/
import Stuart.Utils.TopicUtil

namespace Stuart

open List Lib TopicConst

namespace TopicUtil

/-- A level without wildcard characters. -/
def Plain (level : Str) : Prop := '+' ∉ level ∧ '#' ∉ level

/-- The grammar of filters; `back` are the levels after the one that is looked at. -/
def FilterGrammar (filter : Str) : Prop :=
  filter ≠ [] ∧ ∀ front level back, levels filter = front ++ level :: back →
    Plain level ∨ level = PLUS ∨ level = POUND ∧ back = []

/-! ### The words of `split` -/

lemma mem_levels_of_mem_split {filter : Str} (hne : filter ≠ []) {word : Str}
    (h : word ∈ split filter) : word ∈ levels filter := by
  rw [split_eq filter hne] at h
  exact ( rdropWhile_prefix _ _).subset h

/-- Only empty levels are dropped. -/
lemma mem_split_of_mem_levels {filter : Str} (hne : filter ≠ []) {level : Str}
    (h : level ∈ levels filter) (hlevel : level ≠ []) : level ∈ split filter := by
  rw [← @rdropWhile_append_rtakeWhile _ (fun w : Str => w.isEmpty) (levels filter), mem_append] at h
  rw [split_eq filter hne]
  rcases h with h | h
  · exact h
  · have hempty : level = [] := by simpa using mem_rtakeWhile_imp h
    exact absurd hempty hlevel

/-- The check of the words says of a level that its wildcard characters stand alone. -/
lemma word_check_iff (word : Str) :
    (!(decide (word.length > 1) && (word.contains '#' || word.contains '+'))) = true ↔
      Plain word ∨ word = PLUS ∨ word = POUND := by
  match word with
  | [] => simp [Plain]
  | [c] =>
      by_cases hplus : c = '+'
      · simp [hplus, PLUS]
      · by_cases hpound : c = '#'
        · simp [hpound, POUND]
        · simp [Plain, Ne.symm hplus, Ne.symm hpound]
  | c :: d :: rest =>
      have hplus : c :: d :: rest ≠ PLUS := by simp [PLUS]
      have hpound : c :: d :: rest ≠ POUND := by simp [POUND]
      rw [or_iff_left (by simp [hplus, hpound]), Plain]
      simp [not_or, and_comm]

/-- The check of all words is a check of all levels. -/
lemma words_check_iff {filter : Str} (hne : filter ≠ []) :
    ((split filter).all fun word =>
      !(decide (word.length > 1) && (word.contains '#' || word.contains '+'))) = true ↔
      ∀ level ∈ levels filter, Plain level ∨ level = PLUS ∨ level = POUND := by
  rw [all_eq_true]
  constructor
  · intro h level hlevel
    by_cases hempty : level = []
    · exact Or.inl (by simp [hempty, Plain])
    · exact (word_check_iff level).1 (h level (mem_split_of_mem_levels hne hlevel hempty))
  · intro h word hword
    exact (word_check_iff word).2 (h word (mem_levels_of_mem_split hne hword))

/-! ### The last level -/

/-- Only the last level of a filter that ends in its first `#` has a `#`. -/
lemma pound_not_mem_of_last {filter : Str} {s : Str} (hs : filter = s ++ ['#']) (hnot : '#' ∉ s)
    {front back : List Str} {level : Str} (h : levels filter = front ++ level :: back)
    (hback : back ≠ []) : '#' ∉ level := by
  intro hmem
  obtain ⟨init, last, rfl⟩ := (eq_nil_or_concat back).resolve_left hback
  rw [concat_eq_append] at h
  have hfront : front ++ level :: init ≠ [] := by simp
  have hlevels : levels filter = (front ++ level :: init) ++ [last] := by
    rw [h]
    simp
  -- before the last separator there is a prefix of `s`
  have hjoin : s ++ ['#'] = [SLASH].intercalate (front ++ level :: init) ++ SLASH :: last := by
    rw [← intercalate_concat hfront, ← hlevels, join_levels, hs]
  have hpound : '#' ∈ [SLASH].intercalate (front ++ level :: init) :=
    (mem_intercalate (by decide)).2 ⟨level, by simp, hmem⟩
  rcases append_eq_append_iff.1 hjoin with ⟨a, ha, hb⟩ | ⟨a, ha, -⟩
  · cases a with
    | nil => exact hnot (by simpa [ha] using hpound)
    | cons c a => simp at hb
  · exact hnot (by rw [ha]; exact mem_append_left _ hpound)

/-- If only the last level has a `#`, and is a single one, then it is the last character. -/
lemma pound_last_of_levels {filter : Str} {front : List Str}
    (h : levels filter = front ++ [POUND]) (hfront : ∀ level ∈ front, '#' ∉ level) :
    filter.idxOf '#' = filter.length - 1 := by
  have hs : ∃ s, filter = s ++ ['#'] ∧ '#' ∉ s := by
    rw [← join_levels filter, h]
    by_cases hne : front = []
    · exact ⟨[], by simp [hne, POUND], not_mem_nil⟩
    · refine ⟨[SLASH].intercalate front ++ [SLASH], ?_, ?_⟩
      · rw [intercalate_concat hne, POUND]
        simp
      · rw [mem_append, mem_intercalate (by decide), mem_singleton]
        rintro (⟨level, hlevel, hmem⟩ | hslash)
        · exact hfront level hlevel hmem
        · exact absurd hslash (by decide)
  obtain ⟨s, rfl, hnot⟩ := hs
  rw [idxOf_append_of_notMem hnot]
  simp

/-! ### The check -/

/-- **`checkSubscribeTopic` accepts exactly the filters of the grammar.** -/
theorem checkSubscribeTopic_iff (filter : Str) :
    checkSubscribeTopic filter = true ↔ FilterGrammar filter := by
  constructor
  · intro h
    have hne := ne_nil_of_check h
    refine ⟨hne, fun front level back hlevels => ?_⟩
    have hwords : ∀ level ∈ levels filter, Plain level ∨ level = PLUS ∨ level = POUND := by
      rw [← words_check_iff hne]
      simp only [checkSubscribeTopic] at h
      split_ifs at h
      exact h
    rcases hwords level (by simp [hlevels]) with hplain | hplus | hpound
    · exact Or.inl hplain
    · exact Or.inr (Or.inl hplus)
    · refine Or.inr (Or.inr ⟨hpound, ?_⟩)
      by_contra hback
      have hmem : '#' ∈ level := by simp [hpound, POUND]
      have hfilter : '#' ∈ filter := by
        rw [← join_levels filter, mem_intercalate (by decide)]
        exact ⟨level, by simp [hlevels], hmem⟩
      obtain ⟨s, hs, hnot⟩ := pound_last_of_check h hfilter
      exact pound_not_mem_of_last hs hnot hlevels hback hmem
  · rintro ⟨hne, hgrammar⟩
    have hwords : ∀ level ∈ levels filter, Plain level ∨ level = PLUS ∨ level = POUND := by
      intro level hlevel
      obtain ⟨front, back, hlevels⟩ := append_of_mem hlevel
      exact (hgrammar front level back hlevels).imp_right (Or.imp_right And.left)
    have hindex : '#' ∈ filter → filter.idxOf '#' = filter.length - 1 := by
      intro hmem
      rw [← join_levels filter, mem_intercalate (by decide)] at hmem
      obtain ⟨level, hlevel, hmem⟩ := hmem
      obtain ⟨front, back, hlevels⟩ := append_of_mem hlevel
      have hpound : level = POUND ∧ back = [] := by
        rcases hgrammar front level back hlevels with hplain | hplus | hpound
        · exact absurd hmem hplain.2
        · exact absurd hmem (by simp [hplus, PLUS])
        · exact hpound
      obtain ⟨rfl, rfl⟩ := hpound
      refine pound_last_of_levels hlevels fun other hother hin => ?_
      -- a level before the last one would be a second `#`
      obtain ⟨front', back', rfl⟩ := append_of_mem hother
      rcases hgrammar front' other (back' ++ [POUND]) (by rw [hlevels]; simp) with
        hplain | hplus | ⟨-, hback⟩
      · exact hplain.2 hin
      · exact absurd hin (by simp [hplus, PLUS])
      · exact absurd hback (by simp)
    simp only [checkSubscribeTopic]
    rw [if_neg (by simp [hne]), if_neg ?_]
    · exact (words_check_iff hne).2 hwords
    · simp only [Bool.and_eq_true, contains_iff_mem, bne_iff_ne, ne_eq, not_and, not_not]
      exact hindex

example : checkSubscribeTopic "a/+//#".toList = true ∧ checkSubscribeTopic "a/#/".toList = false ∧
    checkSubscribeTopic "a/b+".toList = false := by decide

end TopicUtil

end Stuart
