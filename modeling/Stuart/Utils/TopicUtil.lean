/-
Topics: the checks and the word splitter of `TopicUtil`.

A topic is a nonempty string.  The routing trie and the topic matcher do not work on the levels of a
topic (the pieces between consecutive `/`) but on `words`, which is `String.split` with a correction
for a trailing slash.  `words_eq_levels_iff` says exactly when the two agree: not for a topic whose last two
levels are both empty, since `split` drops every trailing empty piece and the correction puts
only one of them back.
-/
import Stuart.Lib.Levels
import Stuart.Utils.StringUtils
import Mathlib.Data.List.DropRight

namespace Stuart

open List Lib

namespace TopicConst

def SLASH : Char := '/'

def PLUS : Str := ['+']

def POUND : Str := ['#']

end TopicConst

namespace TopicUtil

open TopicConst

def validateTopic (topic : Str) : Bool := !topic.isEmpty

/-- `String.split("/")`: the pieces between the separators without the trailing empty ones; a
string without a separator is its own only piece. -/
def split (s : Str) : List Str :=
  if SLASH ∈ s then (s.splitOn SLASH).rdropWhile fun w => w.isEmpty else [s]

def checkSubscribeTopic (topic : Str) : Bool :=
  if !validateTopic topic then false
  -- the first '#' has to be the last character
  else if topic.contains '#' && topic.idxOf '#' != topic.length - 1 then false
  else (split topic).all fun word =>
    !(decide (word.length > 1) && (word.contains '#' || word.contains '+'))

def checkPublishTopic (topic : Str) : Bool :=
  if !validateTopic topic || topic.contains '#' || topic.contains '+' then false else true

def isWildcard (topic : Str) : Bool :=
  if topic.contains '#' || topic.contains '+' then true else false

def words (topic : Str) : List Str :=
  if topic.getLast? = some SLASH then split topic ++ [[]] else split topic

/-- The levels of a topic: the pieces between consecutive slashes, empty pieces included. -/
def levels (topic : Str) : List Str := topic.splitOn SLASH

/-- The last two levels of a topic are empty: it is a single slash or ends in two of them. -/
def endsInEmptyLevels (topic : Str) : Prop := [[], []] <:+ levels topic

instance (topic : Str) : Decidable (endsInEmptyLevels topic) :=
  inferInstanceAs (Decidable (_ <:+ _))

/-! ### The checks -/

@[simp] lemma validateTopic_iff {topic : Str} : validateTopic topic = true ↔ topic ≠ [] := by
  simp [validateTopic]

lemma checkPublishTopic_iff {topic : Str} :
    checkPublishTopic topic = true ↔ topic ≠ [] ∧ '#' ∉ topic ∧ '+' ∉ topic := by
  simp only [checkPublishTopic]
  by_cases h : topic = [] <;> simp [h, validateTopic]

lemma isWildcard_iff {topic : Str} : isWildcard topic = true ↔ '#' ∈ topic ∨ '+' ∈ topic := by
  simp [isWildcard]

/-! ### Levels and words -/

lemma levels_ne_nil (topic : Str) : levels topic ≠ [] := splitOn_ne_nil _ _

lemma slash_not_mem_levels (topic : Str) : ∀ w ∈ levels topic, SLASH ∉ w :=
  not_mem_of_mem_splitOn

lemma join_levels (topic : Str) : [SLASH].intercalate (levels topic) = topic :=
  intercalate_splitOn SLASH

lemma split_eq (topic : Str) (h : topic ≠ []) :
    split topic = (levels topic).rdropWhile fun w => w.isEmpty := by
  simp only [split, levels]
  by_cases hs : SLASH ∈ topic
  · rw [if_pos hs]
  · rw [if_neg hs, splitOn_eq_singleton hs, rdropWhile_singleton]
    simp [h]

/-- A topic that ends in a slash: the last level is empty, and the words are the levels before
it without their trailing empty ones, and one empty word. -/
lemma words_concat_slash (s : Str) :
    levels (s ++ [SLASH]) = levels s ++ [[]] ∧
      words (s ++ [SLASH]) = ((levels s).rdropWhile fun w => w.isEmpty) ++ [[]] := by
  have hl : levels (s ++ [SLASH]) = levels s ++ [[]] := splitOn_concat_sep s
  refine ⟨hl, ?_⟩
  have hlast : (s ++ [SLASH]).getLast? = some SLASH := by simp
  rw [words, if_pos hlast, split_eq _ (by simp), hl, rdropWhile_concat_pos _ _ _ (by simp)]

/-- A nonempty topic that does not end in a slash has its levels as words. -/
lemma words_of_not_slash {topic : Str} (h : topic ≠ []) (hlast : topic.getLast? ≠ some SLASH) :
    words topic = levels topic := by
  rw [words, if_neg hlast, split_eq _ h, rdropWhile_eq_self_iff]
  intro hl hempty
  have hnil : (levels topic).getLast hl = [] := by simpa using hempty
  obtain ⟨s, rfl, -⟩ := exists_of_splitOn_concat_nil h
    (show topic.splitOn SLASH = (levels topic).dropLast ++ [[]] by
      rw [← hnil, dropLast_append_getLast hl]; rfl)
  exact hlast (by simp)

lemma words_ne_nil {topic : Str} (h : topic ≠ []) : words topic ≠ [] := by
  by_cases hlast : topic.getLast? = some SLASH
  · rw [words, if_pos hlast]
    simp
  · rw [words_of_not_slash h hlast]
    exact levels_ne_nil topic

/-- Every word of a topic is one of its levels. -/
lemma mem_levels_of_mem_words {topic : Str} (h : topic ≠ []) {w : Str} (hw : w ∈ words topic) :
    w ∈ levels topic := by
  by_cases hlast : topic.getLast? = some SLASH
  · obtain ⟨s, rfl⟩ := getLast?_eq_some_iff.1 hlast
    rw [(words_concat_slash s).2, mem_append] at hw
    rw [(words_concat_slash s).1, mem_append]
    rcases hw with hw | hw
    · exact Or.inl (( rdropWhile_prefix _ _).subset hw)
    · exact Or.inr hw
  · rwa [words_of_not_slash h hlast] at hw

/-- The words of a topic are its levels unless its last two levels are empty. -/
theorem words_eq_levels_iff {topic : Str} (h : topic ≠ []) :
    words topic = levels topic ↔ ¬endsInEmptyLevels topic := by
  by_cases hlast : topic.getLast? = some SLASH
  · obtain ⟨s, rfl⟩ := getLast?_eq_some_iff.1 hlast
    obtain ⟨hl, hw⟩ := words_concat_slash s
    rw [hw, hl, append_left_inj, rdropWhile_eq_self_iff, endsInEmptyLevels, hl]
    have hne := levels_ne_nil s
    have hsuf : [[], []] <:+ levels s ++ [[]] ↔ (levels s).getLast hne = [] := by
      constructor
      · rintro ⟨l, heq⟩
        have heq' : l ++ [[]] = levels s := append_cancel_right (by simpa using heq)
        simp [← heq']
      · intro hnil
        refine ⟨(levels s).dropLast, ?_⟩
        have := dropLast_append_getLast hne
        rw [hnil] at this
        rw [← this]
        simp
    rw [hsuf]
    simp [hne]
  · have hw := words_of_not_slash h hlast
    refine iff_of_true hw fun ⟨l, hl⟩ => hlast ?_
    obtain ⟨s, rfl, -⟩ := exists_of_splitOn_concat_nil h
      (show topic.splitOn SLASH = (l ++ [[]]) ++ [[]] by simpa [levels] using hl.symm)
    simp

/-- The words of a topic never end in two empty words. -/
lemma not_suffix_words {topic : Str} (h : topic ≠ []) : ¬[[], []] <:+ words topic := by
  by_cases hlast : topic.getLast? = some SLASH
  · obtain ⟨s, rfl⟩ := getLast?_eq_some_iff.1 hlast
    rw [(words_concat_slash s).2]
    rintro ⟨l, heq⟩
    have heq' : l ++ [[]] = (levels s).rdropWhile fun w => w.isEmpty :=
      append_cancel_right (by simpa using heq)
    have hlast' := rdropWhile_last_not (fun w : Str => w.isEmpty) (levels s)
      (by rw [← heq']; simp)
    simp [← heq'] at hlast'
  · have hw := words_of_not_slash h hlast
    rw [hw]
    exact (words_eq_levels_iff h).1 hw

/-- A character other than the slash occurs in a topic iff it occurs in one of its words. -/
lemma mem_iff_exists_words {topic : Str} (h : topic ≠ []) {c : Char} (hc : c ≠ SLASH) :
    c ∈ topic ↔ ∃ w ∈ words topic, c ∈ w := by
  rw [← join_levels topic, mem_intercalate hc, join_levels]
  constructor
  · rintro ⟨w, hw, hcw⟩
    refine ⟨w, ?_, hcw⟩
    by_cases hlast : topic.getLast? = some SLASH
    · obtain ⟨s, rfl⟩ := getLast?_eq_some_iff.1 hlast
      rw [(words_concat_slash s).1, mem_append] at hw
      rw [(words_concat_slash s).2, mem_append]
      rcases hw with hw | hw
      · -- the pieces that are dropped are empty, and `w` is not
        refine Or.inl ?_
        rw [← @rdropWhile_append_rtakeWhile _ (fun w : Str => w.isEmpty) (levels s),
          mem_append] at hw
        rcases hw with hw | hw
        · exact hw
        · have hempty : w = [] := by simpa using mem_rtakeWhile_imp hw
          simp [hempty] at hcw
      · exact Or.inr hw
    · rwa [words_of_not_slash h hlast]
  · rintro ⟨w, hw, hcw⟩
    exact ⟨w, mem_levels_of_mem_words h hw, hcw⟩

/-! ### Accepted filters -/

lemma ne_nil_of_check {filter : Str} (h : checkSubscribeTopic filter = true) : filter ≠ [] := by
  rintro rfl
  simp [checkSubscribeTopic, validateTopic] at h

/-- A nonempty string without wildcard characters is an accepted filter. -/
lemma check_of_not_wildcard {topic : Str} (h : topic ≠ []) (hpound : '#' ∉ topic)
    (hplus : '+' ∉ topic) : checkSubscribeTopic topic = true := by
  simp only [checkSubscribeTopic]
  rw [if_neg (by simp [h]), if_neg (by simp [hpound]), all_eq_true]
  intro word hword
  have hlev : word ∈ levels topic := by
    rw [split_eq topic h] at hword
    exact ( rdropWhile_prefix _ _).subset hword
  have hnot : ∀ c : Char, c ≠ SLASH → c ∉ topic → c ∉ word := by
    intro c hc hct hcw
    rw [← join_levels topic] at hct
    exact hct ((mem_intercalate hc).2 ⟨word, hlev, hcw⟩)
  simp [hnot '#' (by decide) hpound, hnot '+' (by decide) hplus]

/-- The wildcard words of a topic are made of its wildcard characters. -/
lemma literal_words {topic : Str} (h : topic ≠ []) (hpound : '#' ∉ topic) (hplus : '+' ∉ topic) :
    PLUS ∉ words topic ∧ POUND ∉ words topic := by
  have hnot : ∀ c : Char, c ≠ SLASH → c ∉ topic → [c] ∉ words topic := by
    intro c hc hct hmem
    exact hct ((mem_iff_exists_words h hc).2 ⟨[c], hmem, by simp⟩)
  exact ⟨hnot '+' (by decide) hplus, hnot '#' (by decide) hpound⟩

/-- In an accepted filter a `#` is the last character. -/
lemma pound_last_of_check {filter : Str} (h : checkSubscribeTopic filter = true) :
    '#' ∈ filter → ∃ s, filter = s ++ ['#'] ∧ '#' ∉ s := by
  intro hmem
  simp only [checkSubscribeTopic] at h
  split_ifs at h with h1 h2
  have hne : filter ≠ [] := ne_nil_of_mem hmem
  have hidx : filter.idxOf '#' = filter.length - 1 := by simpa [hmem] using h2
  have hlen : 0 < filter.length := length_pos_of_ne_nil hne
  refine ⟨filter.take (filter.length - 1), ?_, ?_⟩
  · have hlt : filter.idxOf '#' < filter.length := idxOf_lt_length_iff.2 hmem
    have hlast : filter.getLast hne = '#' := by
      have hget := getElem_idxOf hlt
      simp only [hidx] at hget
      rw [getLast_eq_getElem, hget]
    rw [← hlast, take_append_getLast]
  · intro hmem'
    have hlt := idxOf_lt_length_iff.2 hmem'
    obtain ⟨r, hr⟩ := take_prefix (filter.length - 1) filter
    have hidx' : filter.idxOf '#' = (filter.take (filter.length - 1)).idxOf '#' := by
      conv_lhs => rw [← hr]
      exact idxOf_append_of_mem hmem'
    rw [length_take] at hlt
    omega

/-- In an accepted filter only the last word can be `#`. -/
lemma pound_not_mem_dropLast {filter : Str} (h : checkSubscribeTopic filter = true) :
    POUND ∉ (words filter).dropLast := by
  intro hmem
  have hne := ne_nil_of_check h
  have hc : '#' ∈ filter :=
    (mem_iff_exists_words hne (by decide)).2 ⟨POUND, mem_of_mem_dropLast hmem, by simp [POUND]⟩
  obtain ⟨s, hs, hnot⟩ := pound_last_of_check h hc
  have hlast : filter.getLast? ≠ some SLASH := by rw [hs]; simp [SLASH]
  rw [words_of_not_slash hne hlast] at hmem
  set ws := (levels filter).dropLast with hws
  have hwsne : ws ≠ [] := ne_nil_of_mem hmem
  have hlevels : levels filter = ws ++ [(levels filter).getLast (levels_ne_nil _)] :=
    (dropLast_append_getLast _).symm
  have hjoin : s ++ ['#'] =
      [SLASH].intercalate ws ++ SLASH :: (levels filter).getLast (levels_ne_nil _) := by
    rw [← intercalate_concat hwsne, ← hlevels, join_levels, hs]
  -- the part before the last separator is a prefix of `s`
  have hpre : [SLASH].intercalate ws <+: s := by
    rcases append_eq_append_iff.1 hjoin with ⟨a, ha, hb⟩ | ⟨a, ha, -⟩
    · cases a with
      | nil => exact ⟨[], by simpa using ha⟩
      | cons c a =>
          exfalso
          simp only [cons_append, cons.injEq] at hb
          obtain ⟨-, hb⟩ := hb
          simp at hb
    · exact ⟨a, ha.symm⟩
  have hin : '#' ∈ [SLASH].intercalate ws :=
    (mem_intercalate (by decide)).2 ⟨POUND, hmem, by simp [POUND]⟩
  exact hnot (hpre.subset hin)

end TopicUtil

end Stuart
