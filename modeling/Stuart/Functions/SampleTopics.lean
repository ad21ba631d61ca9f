/-
Finitely many topics stand for all of them.

The topic matcher compares the words of a topic with those of a pattern, and `eq(…)` compares
whole topics.  So of the levels of a topic only those count that occur in the patterns at hand, and
of its length only whether it is larger than theirs.  For every topic `exists_sample` gives one
that the same patterns match and that is built of the levels of the patterns and one further
level, with at most one level more than the longest pattern has.
-/
import Stuart.Utils.AuthUtil
import Mathlib.Data.List.Sections

namespace Stuart

open List Lib TopicConst TopicUtil TopicMatchFunction AuthUtil

namespace TopicUtil

/-- The topic with the given levels. -/
def toTopic (ls : List Str) : Str := [SLASH].intercalate ls

lemma levels_toTopic {ls : List Str} (hls : ls ≠ []) (hslash : ∀ w ∈ ls, SLASH ∉ w) :
    levels (toTopic ls) = ls := splitOn_intercalate SLASH hslash hls

lemma toTopic_ne_nil {ls : List Str} (hls : ls ≠ []) (hslash : ∀ w ∈ ls, SLASH ∉ w)
    (hne : ls ≠ [[]]) : toTopic ls ≠ [] := by
  intro h
  have hlevels := levels_toTopic hls hslash
  rw [h] at hlevels
  exact hne hlevels.symm

/-- The words of a topic in terms of its levels. -/
lemma words_eq {topic : Str} (h : topic ≠ []) :
    words topic = if (levels topic).getLast? = some [] then
      ((levels topic).rdropWhile fun w => w.isEmpty) ++ [[]] else levels topic := by
  by_cases hlast : topic.getLast? = some SLASH
  · obtain ⟨s, rfl⟩ := getLast?_eq_some_iff.1 hlast
    obtain ⟨hl, hw⟩ := words_concat_slash s
    rw [hw, hl, if_pos (by simp), rdropWhile_concat_pos _ _ _ (by simp)]
  · rw [words_of_not_slash h hlast, if_neg]
    intro hnil
    obtain ⟨ls, hls⟩ := getLast?_eq_some_iff.1 hnil
    obtain ⟨s, rfl, -⟩ := exists_of_splitOn_concat_nil h hls
    exact hlast (by simp)

end TopicUtil

namespace TopicMatchFunction

/-- The matcher looks at the words of a topic only where they are words of the filter, and at
their number only up to that of the filter. -/
lemma matchWords_congr {ws ws' fs : List Str}
    (hlen : ws.length = ws'.length ∨ fs.length < ws.length ∧ fs.length < ws'.length)
    (hget : ∀ i < fs.length, ∀ f ∈ fs, ws[i]? = some f ↔ ws'[i]? = some f) :
    matchWords ws fs = matchWords ws' fs := by
  have hloop : ∀ n ≤ fs.length, loopMatch ws fs n = loopMatch ws' fs n := by
    intro n hn
    have hiff : loopMatch ws fs n = 1 ↔ loopMatch ws' fs n = 1 := by
      rw [loopMatch_eq_one_iff, loopMatch_eq_one_iff]
      refine forall₂_congr fun i hi => ?_
      have hlt : i < fs.length := by omega
      rw [getElem?_eq_getElem hlt, hget i hlt _ (getElem_mem hlt)]
    simp only [loopMatch] at hiff ⊢
    split_ifs at hiff ⊢ <;> first | rfl | simp at hiff
  simp only [matchWords]
  rcases hlen with hlen | ⟨hlt, hlt'⟩
  · rw [hlen]
    split_ifs
    · rfl
    · exact hloop _ le_rfl
    · exact hloop _ (by omega)
    · rfl
    · rfl
    · exact hloop _ (by omega)
  · rw [if_pos hlt, if_pos hlt', hloop _ le_rfl]

end TopicMatchFunction

namespace SampleTopics

/-- The levels that occur in the patterns, and the empty level. -/
def alphabet (ps : List Str) : List Str := [] :: ps.flatMap fun p => words p ++ levels (eqTopic p)

/-- A level that occurs in no pattern. -/
def freshLevel (ps : List Str) : Str := replicate ((alphabet ps).flatten.length + 1) 'x'

/-- No pattern has more levels. -/
def maxLevels (ps : List Str) : ℕ :=
  (ps.map fun p => max (words p).length (levels (eqTopic p)).length).foldr max 1

def sampleTopics (ps : List Str) : List Str :=
  (range (maxLevels ps + 1)).flatMap fun n =>
    ((replicate (n + 1) (freshLevel ps :: alphabet ps)).sections).map toTopic

/-- The patterns do not tell the topics apart. -/
def SameMatches (ps : List Str) (t t' : Str) : Prop :=
  ∀ p ∈ ps, topicMatch t p = topicMatch t' p ∧ isMatch t p = isMatch t' p

variable {ps : List Str} {t t' : Str}

/-! ### The levels and the bound -/

lemma words_mem_alphabet {p w : Str} (hp : p ∈ ps) (hw : w ∈ words p) : w ∈ alphabet ps :=
  mem_cons_of_mem _ (mem_flatMap.2 ⟨p, hp, mem_append_left _ hw⟩)

lemma levels_mem_alphabet {p w : Str} (hp : p ∈ ps) (hw : w ∈ levels (eqTopic p)) :
    w ∈ alphabet ps :=
  mem_cons_of_mem _ (mem_flatMap.2 ⟨p, hp, mem_append_right _ hw⟩)

lemma freshLevel_ne_nil : freshLevel ps ≠ [] := by simp [freshLevel]

lemma eq_of_mem_freshLevel {c : Char} (h : c ∈ freshLevel ps) : c = 'x' := eq_of_mem_replicate h

lemma freshLevel_not_mem : freshLevel ps ∉ alphabet ps := by
  intro h
  have hle : (freshLevel ps).length ≤ (alphabet ps).flatten.length :=
    (sublist_flatten_of_mem h).length_le
  rw [freshLevel, length_replicate] at hle
  omega

lemma le_foldr_max {ns : List ℕ} {n : ℕ} (h : n ∈ ns) : n ≤ ns.foldr max 1 := by
  induction ns with
  | nil => simp at h
  | cons m ns ih =>
      rw [foldr_cons]
      rcases mem_cons.1 h with rfl | h
      · exact le_max_left _ _
      · exact (ih h).trans (le_max_right _ _)

lemma length_le_maxLevels {p : Str} (hp : p ∈ ps) :
    (words p).length ≤ maxLevels ps ∧ (levels (eqTopic p)).length ≤ maxLevels ps :=
  Nat.max_le.1 (le_foldr_max (mem_map_of_mem hp))

lemma one_le_maxLevels : 1 ≤ maxLevels ps := by
  simp only [maxLevels]
  induction ps with
  | nil => exact le_rfl
  | cons p ps ih => exact ih.trans (le_max_right _ _)

/-- All lists of the given levels up to the bound are among the samples. -/
lemma mem_sampleTopics {ls : List Str} (hne : ls ≠ []) (hlen : ls.length ≤ maxLevels ps + 1)
    (hmem : ∀ w ∈ ls, w = freshLevel ps ∨ w ∈ alphabet ps) : toTopic ls ∈ sampleTopics ps := by
  have hpos := length_pos_of_ne_nil hne
  refine mem_flatMap.2 ⟨ls.length - 1, mem_range.2 (by omega), mem_map_of_mem ?_⟩
  rw [show ls.length - 1 + 1 = ls.length by omega, mem_sections]
  clear hne hlen hpos
  induction ls with
  | nil => exact Forall₂.nil
  | cons w ls ih =>
      refine Forall₂.cons (mem_cons.2 (hmem w mem_cons_self)) (ih fun v hv => ?_)
      exact hmem v (mem_cons_of_mem w hv)

/-! ### Topics with the same matches -/

lemma SameMatches.trans {t'' : Str} (h : SameMatches ps t t') (h' : SameMatches ps t' t'') :
    SameMatches ps t t'' := fun p hp =>
  ⟨(h p hp).1.trans (h' p hp).1, (h p hp).2.trans (h' p hp).2⟩

/-- What the matchers look at. -/
lemma sameMatches_of_words (ht : t ≠ []) (ht' : t' ≠ [])
    (hwords : ∀ p ∈ ps, matchWords (words t) (words p) = matchWords (words t') (words p))
    (heq : ∀ p ∈ ps, t = eqTopic p ↔ t' = eqTopic p) : SameMatches ps t t' := by
  intro p hp
  have hmatch : topicMatch t p = topicMatch t' p := by
    simp only [topicMatch]
    have hv : validateTopic t = validateTopic t' := by
      rw [validateTopic_iff.2 ht, validateTopic_iff.2 ht']
    rw [hv, hwords p hp]
  refine ⟨hmatch, ?_⟩
  simp only [isMatch]
  have hbeq : (t == eqTopic p) = (t' == eqTopic p) := by
    rw [Bool.eq_iff_iff, beq_iff_eq, beq_iff_eq]
    exact heq p hp
  have hv : validateTopic t = validateTopic t' := by
    rw [validateTopic_iff.2 ht, validateTopic_iff.2 ht']
  rw [hv, hmatch, hbeq]

/-! ### Fewer levels -/

/-- A topic with more levels than every pattern is no topic of an `eq(…)`. -/
lemma ne_eqTopic {p : Str} (hp : p ∈ ps) (hlong : maxLevels ps < (levels t).length) :
    t ≠ eqTopic p := by
  rintro rfl
  have := (length_le_maxLevels hp).2
  omega

/-- A topic that ends in two empty levels has the words of the topic without the last one. -/
lemma drop_slash {s : Str} (hs : s ≠ []) (hlast : (levels s).getLast? = some []) :
    words (s ++ [SLASH]) = words s := by
  rw [(words_concat_slash s).2, words_eq hs, if_pos hlast]

/-- A topic that is too long: either the last level goes, or all levels from the bound on are
replaced by the fresh one. -/
lemma exists_shorter (ht : checkPublishTopic t = true)
    (hlong : maxLevels ps + 1 < (levels t).length) :
    ∃ t', checkPublishTopic t' = true ∧ (levels t').length < (levels t).length ∧
      SameMatches ps t t' := by
  obtain ⟨hne, hpound, hplus⟩ := checkPublishTopic_iff.1 ht
  have hpos := @one_le_maxLevels ps
  by_cases hend : endsInEmptyLevels t
  · obtain ⟨front, hfront⟩ := hend
    -- `words` drops all but one of the empty levels at the end, so the last slash may go
    obtain ⟨s, rfl, hs⟩ := exists_of_splitOn_concat_nil hne
      (show t.splitOn SLASH = (front ++ [[]]) ++ [[]] by simpa [levels] using hfront.symm)
    have hlevels : levels (s ++ [SLASH]) = levels s ++ [[]] := (words_concat_slash s).1
    have hlen : (levels (s ++ [SLASH])).length = (levels s).length + 1 := by simp [hlevels]
    have hsne : s ≠ [] := by
      rintro rfl
      have : (levels ([] : Str)).length = 1 := by decide
      omega
    have hwords : words (s ++ [SLASH]) = words s :=
      drop_slash hsne (by rw [levels, hs]; simp)
    refine ⟨s, ?_, by omega, sameMatches_of_words hne hsne (fun p _ => by rw [hwords])
      fun p hp => ?_⟩
    · refine checkPublishTopic_iff.2 ⟨hsne, fun h => hpound ?_, fun h => hplus ?_⟩
      · exact mem_append_left _ h
      · exact mem_append_left _ h
    · exact iff_of_false (ne_eqTopic hp (by omega)) (ne_eqTopic hp (by omega))
  -- the matcher sees the first levels and that there are more of them than in any pattern
  · set ls := (levels t).take (maxLevels ps) ++ [freshLevel ps] with hls
    have hlslen : ls.length = maxLevels ps + 1 := by
      rw [hls, length_append, length_take, length_singleton]
      omega
    have hlsne : ls ≠ [] := by simp [hls]
    have hchars : ∀ c : Char, c ≠ SLASH → c ≠ 'x' → c ∉ t → c ∉ toTopic ls := by
      intro c hc hx hct hmem
      obtain ⟨w, hw, hcw⟩ := (mem_intercalate hc).1 hmem
      rcases mem_append.1 hw with hw | hw
      · rw [← join_levels t] at hct
        exact hct ((mem_intercalate hc).2 ⟨w, mem_of_mem_take hw, hcw⟩)
      · obtain rfl := mem_singleton.1 hw
        exact hx (eq_of_mem_freshLevel hcw)
    have hslash : ∀ w ∈ ls, SLASH ∉ w := by
      intro w hw hmem
      rcases mem_append.1 hw with hw | hw
      · exact slash_not_mem_levels t w (mem_of_mem_take hw) hmem
      · obtain rfl := mem_singleton.1 hw
        exact absurd (eq_of_mem_freshLevel hmem) (by decide)
    have hlev : levels (toTopic ls) = ls := levels_toTopic hlsne hslash
    have hne' : toTopic ls ≠ [] := by
      refine toTopic_ne_nil hlsne hslash fun h => ?_
      have := congrArg length h
      rw [hlslen, length_singleton] at this
      omega
    have hwords : words (toTopic ls) = ls := by
      rw [words_eq hne', hlev, if_neg]
      simp [hls, freshLevel_ne_nil]
    refine ⟨toTopic ls, checkPublishTopic_iff.2 ⟨hne', hchars '#' (by decide) (by decide) hpound,
      hchars '+' (by decide) (by decide) hplus⟩, by rw [hlev, hlslen]; omega,
      sameMatches_of_words hne hne' (fun p hp => ?_) fun p hp => ?_⟩
    · rw [(words_eq_levels_iff hne).2 hend, hwords]
      have hp' := (length_le_maxLevels hp).1
      refine matchWords_congr (Or.inr ⟨by omega, by omega⟩) fun i hi f _ => ?_
      rw [hls, getElem?_append_left (by rw [length_take]; omega), getElem?_take_of_lt (by omega)]
    · exact iff_of_false (ne_eqTopic hp (by omega)) (ne_eqTopic hp (by rw [hlev]; omega))

/-- Every topic has the matches of one that is not too long. -/
lemma exists_short (ps : List Str) (ht : checkPublishTopic t = true) :
    ∃ t', checkPublishTopic t' = true ∧ (levels t').length ≤ maxLevels ps + 1 ∧
      SameMatches ps t t' := by
  induction hn : (levels t).length using Nat.strong_induction_on generalizing t with
  | _ n ih =>
      by_cases hlong : maxLevels ps + 1 < (levels t).length
      · obtain ⟨s, hs, hlt, hsame⟩ := exists_shorter ht hlong
        obtain ⟨t', ht', hle, hsame'⟩ := ih _ (hn ▸ hlt) hs rfl
        exact ⟨t', ht', hle, hsame.trans hsame'⟩
      · exact ⟨t, ht, by omega, fun p _ => ⟨rfl, rfl⟩⟩

/-! ### Fewer levels to choose from -/

/-- A level that occurs in no pattern becomes the fresh one. -/
def relabel (ps : List Str) (w : Str) : Str := if w ∈ alphabet ps then w else freshLevel ps

lemma relabel_eq_iff {w a : Str} (ha : a ∈ alphabet ps) : relabel ps w = a ↔ w = a := by
  simp only [relabel]
  split_ifs with hw
  · rfl
  · refine iff_of_false (fun h => ?_) fun h => hw (h ▸ ha)
    exact freshLevel_not_mem (h ▸ ha)

lemma relabel_isEmpty (w : Str) : (relabel ps w).isEmpty = w.isEmpty := by
  rw [Bool.eq_iff_iff, List.isEmpty_iff, List.isEmpty_iff]
  exact relabel_eq_iff mem_cons_self

lemma map_relabel_eq_iff {ws as : List Str} (ha : ∀ a ∈ as, a ∈ alphabet ps) :
    ws.map (relabel ps) = as ↔ ws = as := by
  induction as generalizing ws with
  | nil => simp
  | cons a as ih =>
      cases ws with
      | nil => simp
      | cons w ws =>
          rw [map_cons, cons.injEq, cons.injEq, relabel_eq_iff (ha a mem_cons_self),
            ih fun b hb => ha b (mem_cons_of_mem a hb)]

lemma rdropWhile_map_relabel (ws : List Str) :
    (ws.map (relabel ps)).rdropWhile (fun w => w.isEmpty) =
      (ws.rdropWhile fun w => w.isEmpty).map (relabel ps) := by
  simp only [rdropWhile]
  rw [← map_reverse, dropWhile_map, ← map_reverse]
  congr 3
  funext w
  exact relabel_isEmpty w

/-- Every topic has the matches of one with the levels of the patterns and the fresh level. -/
lemma exists_relabelled (ps : List Str) (ht : checkPublishTopic t = true) :
    checkPublishTopic (toTopic ((levels t).map (relabel ps))) = true ∧
      SameMatches ps t (toTopic ((levels t).map (relabel ps))) := by
  obtain ⟨hne, hpound, hplus⟩ := checkPublishTopic_iff.1 ht
  set ls := (levels t).map (relabel ps) with hls
  have hlsne : ls ≠ [] := by simp [hls, levels_ne_nil]
  have hchars : ∀ c : Char, c ≠ 'x' → ∀ v ∈ ls, c ∈ v → ∃ w ∈ levels t, c ∈ w := by
    intro c hx v hv hcv
    obtain ⟨w, hw, rfl⟩ := mem_map.1 hv
    simp only [relabel] at hcv
    split_ifs at hcv
    · exact ⟨w, hw, hcv⟩
    · exact absurd (eq_of_mem_freshLevel hcv) hx
  have hslash : ∀ w ∈ ls, SLASH ∉ w := by
    intro v hv hmem
    obtain ⟨w, hw, hcw⟩ := hchars SLASH (by decide) v hv hmem
    exact slash_not_mem_levels t w hw hcw
  have hlev : levels (toTopic ls) = ls := levels_toTopic hlsne hslash
  have hne' : toTopic ls ≠ [] := by
    refine toTopic_ne_nil hlsne hslash fun h => hne ?_
    -- the empty topic has one empty level, which is in the alphabet
    rw [hls, map_relabel_eq_iff (by simp [alphabet])] at h
    rw [← join_levels t, h]
    rfl
  have hwords : words (toTopic ls) = (words t).map (relabel ps) := by
    have hlast : ls.getLast? = some [] ↔ (levels t).getLast? = some [] := by
      rw [hls, getLast?_map]
      cases (levels t).getLast? with
      | none => simp
      | some w => simpa using relabel_eq_iff mem_cons_self
    rw [words_eq hne', words_eq hne, hlev]
    -- the empty levels stay where they are
    by_cases h : (levels t).getLast? = some []
    · rw [if_pos h, if_pos (hlast.2 h), hls, rdropWhile_map_relabel, map_append]
      congr 1
    · rw [if_neg h, if_neg fun h' => h (hlast.1 h')]
  refine ⟨checkPublishTopic_iff.2 ⟨hne', fun h => hpound ?_, fun h => hplus ?_⟩,
    sameMatches_of_words hne hne' (fun p hp => ?_) fun p hp => ?_⟩
  · obtain ⟨v, hv, hcv⟩ := (mem_intercalate (by decide)).1 h
    rw [← join_levels t]
    exact (mem_intercalate (by decide)).2 (hchars '#' (by decide) v hv hcv)
  · obtain ⟨v, hv, hcv⟩ := (mem_intercalate (by decide)).1 h
    rw [← join_levels t]
    exact (mem_intercalate (by decide)).2 (hchars '+' (by decide) v hv hcv)
  · rw [hwords]
    refine matchWords_congr (Or.inl (by rw [length_map])) fun i _ f hf => ?_
    rw [getElem?_map]
    cases (words t)[i]? with
    | none => simp
    | some w => simpa using (relabel_eq_iff (words_mem_alphabet hp hf)).symm
  · rw [← join_levels t, ← join_levels (eqTopic p)]
    have hinj : ∀ ws : List Str, ws ≠ [] → (∀ w ∈ ws, SLASH ∉ w) →
        ([SLASH].intercalate ws = [SLASH].intercalate (levels (eqTopic p)) ↔
          ws = levels (eqTopic p)) := fun ws hws hw =>
      ⟨intercalate_injective hw (slash_not_mem_levels _) hws (levels_ne_nil _), fun h => by rw [h]⟩
    rw [hinj _ (levels_ne_nil t) (slash_not_mem_levels t), toTopic, hinj _ hlsne hslash, hls,
      map_relabel_eq_iff fun a ha => levels_mem_alphabet hp ha]

/-! ### The samples -/

/-- Every topic has the matches of a sample. -/
theorem exists_sample (ps : List Str) (ht : checkPublishTopic t = true) :
    ∃ t' ∈ sampleTopics ps, checkPublishTopic t' = true ∧ SameMatches ps t t' := by
  obtain ⟨s, hs, hle, hsame⟩ := exists_short ps ht
  obtain ⟨ht', hsame'⟩ := exists_relabelled ps hs
  refine ⟨_, mem_sampleTopics ?_ ?_ ?_, ht', hsame.trans hsame'⟩
  · simp [levels_ne_nil]
  · rw [length_map]
    exact hle
  · intro v hv
    obtain ⟨w, -, rfl⟩ := mem_map.1 hv
    simp only [relabel]
    split_ifs with hw
    · exact Or.inr hw
    · exact Or.inl rfl

end SampleTopics

end Stuart
