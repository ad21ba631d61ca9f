/-
The topic matcher of `TopicMatchFunction`: two word arrays are compared by their lengths and
then position by position.

`topicMatch` is the matcher of the access control list, with the wildcards in its second
argument; `rmatch` is its mirror image, with the wildcards in the first one.  On a filter that
`checkSubscribeTopic` accepts the matcher decides `Lib.Accepts` on the words.
-/
import Stuart.Utils.TopicUtil

namespace Stuart
namespace TopicMatchFunction

open List Lib TopicConst TopicUtil

/-- The loop over the first `length` words: every word of the filter is the word of the topic
or a wildcard. -/
def loopMatch (topic filter : List Str) (length : ℕ) : ℕ :=
  if (range length).all fun i =>
    topic[i]? == filter[i]? || filter[i]? == some PLUS || filter[i]? == some POUND then 1 else 0

/-- The comparison of the word arrays, by the three cases of their lengths. -/
def matchWords (topicWords filterWords : List Str) : ℕ :=
  if topicWords.length > filterWords.length then
    if filterWords[filterWords.length - 1]? ≠ some POUND then 0
    else loopMatch topicWords filterWords filterWords.length
  else if topicWords.length = filterWords.length then
    loopMatch topicWords filterWords topicWords.length
  else if filterWords.length - topicWords.length ≥ 2 then 0
  else if filterWords[topicWords.length]? ≠ some POUND then 0
  else loopMatch topicWords filterWords topicWords.length

def topicMatch (topic filter : Str) : ℕ :=
  if !validateTopic topic || !validateTopic filter then 0
  else if filter = POUND then 1
  else matchWords (words topic) (words filter)

def rloopMatch (topic filter : List Str) (length : ℕ) : ℕ :=
  if (range length).all fun i =>
    topic[i]? == filter[i]? || topic[i]? == some PLUS || topic[i]? == some POUND then 1 else 0

def rmatchWords (topicWords filterWords : List Str) : ℕ :=
  if topicWords.length > filterWords.length then
    if topicWords.length - filterWords.length ≥ 2 then 0
    else if topicWords[filterWords.length]? ≠ some POUND then 0
    else rloopMatch topicWords filterWords filterWords.length
  else if topicWords.length = filterWords.length then
    rloopMatch topicWords filterWords topicWords.length
  else if topicWords[topicWords.length - 1]? ≠ some POUND then 0
  else rloopMatch topicWords filterWords topicWords.length

def rmatch (topic filter : Str) : ℕ :=
  if !validateTopic topic || !validateTopic filter then 0
  else if topic = POUND then 1
  else rmatchWords (words topic) (words filter)

/-! ### The mirror image -/

lemma rloopMatch_eq (a b : List Str) (n : ℕ) : rloopMatch a b n = loopMatch b a n := by
  simp only [rloopMatch, loopMatch]
  congr 3
  funext i
  rw [Bool.beq_comm]

lemma rmatchWords_eq (a b : List Str) : rmatchWords a b = matchWords b a := by
  simp only [rmatchWords, matchWords]
  simp only [rloopMatch_eq]
  rcases lt_trichotomy a.length b.length with h | h | h
  · rw [if_neg (Nat.not_lt.2 h.le), if_neg h.ne, if_pos h]
  · rw [if_neg (Nat.not_lt.2 h.le), if_pos h, if_neg (Nat.not_lt.2 h.ge), if_pos h.symm, h]
  · rw [if_pos h, if_neg (Nat.not_lt.2 h.le), if_neg h.ne]

/-- `rmatch` is the matcher with its arguments exchanged. -/
theorem rmatch_eq (a b : Str) : rmatch a b = topicMatch b a := by
  rw [rmatch, topicMatch, Bool.or_comm, rmatchWords_eq]

/-! ### What the matcher decides -/

lemma loopMatch_eq_one_iff {ws fs : List Str} {n : ℕ} :
    loopMatch ws fs n = 1 ↔
      ∀ i < n, ws[i]? = fs[i]? ∨ fs[i]? = some PLUS ∨ fs[i]? = some POUND := by
  simp only [loopMatch]
  split_ifs with h
  · simpa [or_assoc] using h
  · refine iff_of_false (by simp) fun hall => h ?_
    simpa [or_assoc] using hall

/-- On words that hold `#` at the end only, the comparison by lengths and positions decides
acceptance. -/
lemma loopMatch_concat_pound {ws ps : List Str} (hps : POUND ∉ ps) {n : ℕ}
    (hn : ps.length ≤ n) (hn' : n ≤ ps.length + 1) (hle : ps.length ≤ ws.length) :
    loopMatch ws (ps ++ [POUND]) n = 1 ↔ Accepts PLUS POUND ws (ps ++ [POUND]) := by
  rw [loopMatch_eq_one_iff, accepts_concat_many hps]
  refine ⟨fun h => ⟨hle, fun i hi => ?_⟩, fun ⟨_, h⟩ i hi => ?_⟩
  · have hget : (ps ++ [POUND])[i]? = ps[i]? := getElem?_append_left hi
    rcases h i (by omega) with h | h | h
    · exact Or.inr (by rw [h, hget])
    · exact Or.inl (by rw [← hget, h])
    · rw [hget] at h
      exact absurd (mem_of_getElem? h) hps
  · by_cases hi' : i < ps.length
    · rw [getElem?_append_left hi']
      rcases h i hi' with h | h
      · exact Or.inr (Or.inl h)
      · exact Or.inl h.symm
    · obtain rfl : i = ps.length := by omega
      simp

lemma loopMatch_literal {ws fs : List Str} (hfs : POUND ∉ fs) (hlen : fs.length = ws.length) :
    loopMatch ws fs ws.length = 1 ↔ Accepts PLUS POUND ws fs := by
  rw [loopMatch_eq_one_iff, accepts_iff_of_not_mem hfs]
  refine ⟨fun h => ⟨hlen, fun i hi => ?_⟩, fun ⟨_, h⟩ i hi => ?_⟩
  · rcases h i (by omega) with h | h | h
    · exact Or.inr h.symm
    · exact Or.inl h
    · exact absurd (mem_of_getElem? h) hfs
  · rcases h i (by omega) with h | h
    · exact Or.inr (Or.inl h)
    · exact Or.inl h.symm

/-- The comparison decides acceptance when the filter ends in `#`. -/
lemma matchWords_concat_pound {ws ps : List Str} (hps : POUND ∉ ps) :
    matchWords ws (ps ++ [POUND]) = 1 ↔ Accepts PLUS POUND ws (ps ++ [POUND]) := by
  have hlen : (ps ++ [POUND]).length = ps.length + 1 := by simp
  simp only [matchWords]
  rcases lt_trichotomy ws.length (ps ++ [POUND]).length with h | h | h
  · rw [if_neg (Nat.not_lt.2 h.le), if_neg h.ne]
    by_cases h2 : (ps ++ [POUND]).length - ws.length ≥ 2
    · rw [if_pos h2]
      refine iff_of_false (by simp) fun hacc => ?_
      have := ((accepts_concat_many hps).1 hacc).1
      omega
    · have hws : ws.length = ps.length := by omega
      rw [if_neg h2, if_neg (by simp [hws])]
      exact loopMatch_concat_pound hps (by omega) (by omega) (by omega)
  · rw [if_neg (Nat.not_lt.2 h.le), if_pos h]
    exact loopMatch_concat_pound hps (by omega) (by omega) (by omega)
  · rw [if_pos h, if_neg (by simp)]
    exact loopMatch_concat_pound hps (by omega) (by omega) (by omega)

/-- The comparison decides acceptance when the filter holds no `#`. -/
lemma matchWords_literal {ws fs : List Str} (hfs : POUND ∉ fs) :
    matchWords ws fs = 1 ↔ Accepts PLUS POUND ws fs := by
  have hlen : Accepts PLUS POUND ws fs → fs.length = ws.length := fun hacc =>
    ((accepts_iff_of_not_mem hfs).1 hacc).1
  have hget : ∀ i : ℕ, fs[i]? ≠ some POUND := fun i hi => hfs (mem_of_getElem? hi)
  simp only [matchWords]
  rcases lt_trichotomy ws.length fs.length with h | h | h
  · rw [if_neg (Nat.not_lt.2 h.le), if_neg h.ne, if_pos (hget _), ite_self]
    exact iff_of_false (by simp) fun hacc => h.ne (hlen hacc).symm
  · rw [if_neg (Nat.not_lt.2 h.le), if_pos h]
    exact loopMatch_literal hfs h.symm
  · rw [if_pos h, if_pos (hget _)]
    exact iff_of_false (by simp) fun hacc => h.ne (hlen hacc)

/-- The matcher decides whether the words of the filter accept the words of the topic. -/
theorem topicMatch_eq_one_iff {topic filter : Str} (ht : topic ≠ [])
    (hf : checkSubscribeTopic filter = true) :
    topicMatch topic filter = 1 ↔ Accepts PLUS POUND (words topic) (words filter) := by
  have hne := ne_nil_of_check hf
  simp only [topicMatch]
  rw [if_neg (by simp [ht, hne])]
  by_cases hp : filter = POUND
  · have hwords : words filter = [] ++ [POUND] := by rw [hp]; decide
    rw [if_pos hp, hwords]
    exact iff_of_true rfl ((accepts_concat_many (by simp)).2 (by simp))
  · rw [if_neg hp]
    have hpound := pound_not_mem_dropLast hf
    rw [← dropLast_append_getLast (words_ne_nil hne)]
    by_cases hlast : (words filter).getLast (words_ne_nil hne) = POUND
    · rw [hlast]
      exact matchWords_concat_pound hpound
    · exact matchWords_literal (by simp [hpound, Ne.symm hlast])

/-- For every topic, also one with wildcards in it, the matcher decides acceptance of its words by
those of an accepted filter, and `rmatch` is the matcher with its arguments exchanged. -/
theorem matchers_iff (a b : Str) :
    (a ≠ [] → checkSubscribeTopic b = true →
      (topicMatch a b = 1 ↔ Accepts PLUS POUND (words a) (words b))) ∧
    rmatch a b = topicMatch b a :=
  ⟨topicMatch_eq_one_iff, rmatch_eq a b⟩

theorem matchers_iff_pound :
    (topicMatch "a".toList "a/#".toList = 1 ↔
      Accepts PLUS POUND (words "a".toList) (words "a/#".toList)) ∧
    rmatch "a".toList "a/#".toList = topicMatch "a/#".toList "a".toList :=
  ⟨(matchers_iff "a".toList "a/#".toList).1 (by decide) (by decide),
    (matchers_iff "a".toList "a/#".toList).2⟩

end TopicMatchFunction
end Stuart
