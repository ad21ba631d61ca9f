/-
The trie walk of the router cache.

On a consistent router cache the recursion of `queryMatches` is the walk of `Lib.PrefixTree`
over the paths of the stored wildcard filters, read through the joined strings in which the
trie keeps its paths (`queryMatches_eq`).  `mem_getMatches_iff` turns this into a description
of the set of matches: the topic itself and the joined paths that accept its words.  On this
description the trie walk and the matcher of the access control list agree on every stored
wildcard filter.
-/
import Stuart.Caches.RouterTrie
import Stuart.Functions.TopicMatchFunction
import Stuart.Lib.PrefixTree

namespace Stuart

open List Lib TopicConst TopicUtil TopicMatchFunction

namespace RouterCache

/-- The paths of the trie: the nonempty prefixes of the words of the stored wildcard filters. -/
def storedPath (s : RouterCache) (path : List Str) : Bool :=
  s.routerCache.values.any fun router =>
    isWildcard router.topic && !path.isEmpty && path.isPrefixOf (words router.topic)

lemma storedPath_iff {s : RouterCache} {path : List Str} :
    s.storedPath path = true ↔ path ≠ [] ∧ ∃ key router, s.routerCache.get key = some router ∧
      isWildcard router.topic = true ∧ path <+: words router.topic := by
  simp only [storedPath, any_eq_true, PlainMap.mem_values_iff, Bool.and_eq_true,
    Bool.not_eq_true', List.isEmpty_eq_false_iff, isPrefixOf_iff_prefix]
  constructor
  · rintro ⟨router, ⟨key, hkey⟩, ⟨hw, hne⟩, hpre⟩
    exact ⟨hne, key, router, hkey, hw, hpre⟩
  · rintro ⟨hne, key, router, hkey, hw, hpre⟩
    exact ⟨router, ⟨key, hkey⟩, ⟨hw, hne⟩, hpre⟩

lemma prefixClosed_storedPath (s : RouterCache) : PrefixTree.PrefixClosed s.storedPath := by
  intro path x hne h
  obtain ⟨-, key, router, hkey, hw, hpre⟩ := storedPath_iff.1 h
  exact storedPath_iff.2 ⟨hne, key, router, hkey, hw, (prefix_append path [x]).trans hpre⟩

variable {s : RouterCache}

lemma Consistent.slashFree_of_stored (h : s.Consistent) {path : List Str}
    (hp : s.storedPath path = true) : SlashFree path := by
  obtain ⟨-, key, router, hkey, -, hpre⟩ := storedPath_iff.1 hp
  exact fun w hw => slashFree_words (h.valid _ _ hkey).2 w (hpre.subset hw)

/-- The trie has a node for the slash-free paths that are stored, and for no other. -/
lemma Consistent.get_nodeKey (h : s.Consistent) {path : List Str} (hne : path ≠ [])
    (hfree : SlashFree path) :
    s.trieCache.get (nodeKey path) =
      if s.storedPath path then some (mkNode (nodeKey path) (s.refs (nodeKey path))) else none := by
  have hpos : 0 < s.refs (nodeKey path) ↔ s.storedPath path = true := by
    simp only [refs]
    rw [PlainMap.count_pos_iff, storedPath_iff]
    constructor
    · rintro ⟨key, router, hkey, hmem⟩
      have htopic := (h.valid _ _ hkey).2
      obtain ⟨hw, q, hq, hpre, hnode⟩ := (mem_nodeKeys_iff htopic).1 (of_decide_eq_true hmem)
      have hqfree : SlashFree q := fun w hwq => slashFree_words htopic w (hpre.subset hwq)
      obtain rfl := nodeKey_injective hfree hqfree hne hq hnode
      exact ⟨hne, key, router, hkey, hw, hpre⟩
    · rintro ⟨-, key, router, hkey, hw, hpre⟩
      have htopic := (h.valid _ _ hkey).2
      exact ⟨key, router, hkey,
        decide_eq_true ((mem_nodeKeys_iff htopic).2 ⟨hw, path, hne, hpre, rfl⟩)⟩
  rw [h.counts (nodeKey path)]
  by_cases h0 : s.refs (nodeKey path) = 0
  · have hst : s.storedPath path ≠ true := fun hst => by
      have := hpos.2 hst
      omega
    rw [if_pos h0, if_neg hst]
  · rw [if_neg h0, if_pos (hpos.1 (Nat.pos_of_ne_zero h0))]

lemma filterMap_ite {α β : Type*} (l : List α) (p : α → Bool) (f : α → β) :
    (l.filterMap fun x => if p x then some (f x) else none) = (l.filter p).map f := by
  induction l with
  | nil => rfl
  | cons x l ih =>
      rw [filterMap_cons, filter_cons, ih]
      by_cases hx : p x = true <;> simp [hx]

lemma slashFree_concat {pre : List Str} (hpre : SlashFree pre) {x : Str} (hx : SLASH ∉ x) :
    SlashFree (pre ++ [x]) := by
  intro w hw
  rcases mem_append.1 hw with hw | hw
  · exact hpre w hw
  · rwa [mem_singleton.1 hw]

/-- The nodes that `trie` returns are those of the children that the walk follows. -/
lemma Consistent.trie_eq (h : s.Consistent) {pre : List Str} (hpre : SlashFree pre) {w : Str}
    (hw : SLASH ∉ w) :
    s.trie (builder pre) w = (PrefixTree.children PLUS POUND s.storedPath pre w).map
      fun x => mkNode (nodeKey (pre ++ [x])) (s.refs (nodeKey (pre ++ [x]))) := by
  simp only [trie, PrefixTree.children]
  have hinj : Function.Injective fun x : Str => (⟨builder pre, x⟩ : MqttTrieKey) :=
    fun x y hxy => congrArg MqttTrieKey.word hxy
  rw [dedup_map_of_injective hinj, filterMap_map, ← filterMap_ite]
  refine filterMap_congr fun x hx => ?_
  have hx' : SLASH ∉ x := by
    simp only [mem_dedup, mem_cons, not_mem_nil, or_false] at hx
    rcases hx with rfl | rfl | rfl
    · decide
    · decide
    · exact hw
  rw [← h.get_nodeKey (by simp) (slashFree_concat hpre hx'), nodeKey_concat]
  rfl

lemma Consistent.mem_children (h : s.Consistent) {pre : List Str} {w x : Str}
    (hx : x ∈ PrefixTree.children PLUS POUND s.storedPath pre w) : SLASH ∉ x :=
  h.slashFree_of_stored (PrefixTree.mem_children.1 hx).2 x (by simp)

lemma self_mkNode (pre : List Str) (x : Str) (n : ℕ) :
    (mkNode (nodeKey (pre ++ [x])) n).self = [SLASH].intercalate (pre ++ [x]) := by
  rw [nodeKey_concat]
  exact selfOf_builder pre x

lemma word_mkNode (pre : List Str) (x : Str) (n : ℕ) :
    (mkNode (nodeKey (pre ++ [x])) n).word = x := by
  rw [nodeKey_concat]
  rfl

lemma Consistent.queryPound_eq (h : s.Consistent) {pre : List Str} (hpre : SlashFree pre) :
    s.queryPound (builder pre) = if s.storedPath (pre ++ [POUND]) then
      [[SLASH].intercalate (pre ++ [POUND])] else [] := by
  simp only [queryPound]
  rw [h.trie_eq hpre (by decide), PrefixTree.children, flatMap_map,
    show [PLUS, POUND, POUND].dedup = [PLUS, POUND] by decide]
  have hne : ¬PLUS = POUND := by decide
  by_cases h1 : s.storedPath (pre ++ [PLUS]) = true <;>
    by_cases h2 : s.storedPath (pre ++ [POUND]) = true <;>
    simp [h1, h2, word_mkNode, self_mkNode, hne]

/-- The recursion over the trie is the walk over the stored paths. -/
theorem Consistent.queryMatches_eq (h : s.Consistent) {ws : List Str} (hws : SlashFree ws)
    (hpound : POUND ∉ ws) {pre : List Str} (hpre : SlashFree pre) :
    s.queryMatches (builder pre) ws =
      (PrefixTree.walk PLUS POUND s.storedPath pre ws).map [SLASH].intercalate := by
  induction ws generalizing pre with
  | nil => rfl
  | cons w ws ih =>
      simp only [mem_cons, not_or] at hpound
      rw [queryMatches, PrefixTree.walk, h.trie_eq hpre (hws w (by simp)), flatMap_map,
        map_flatMap]
      refine flatMap_congr fun x hx => ?_
      have hfree := slashFree_concat hpre (h.mem_children hx)
      rw [word_mkNode, self_mkNode, if_neg (Ne.symm hpound.1)]
      by_cases hxp : x = POUND
      · rw [if_pos hxp, if_pos hxp]
        rfl
      · rw [if_neg hxp, if_neg hxp, ← selfOf_builder, ← builder_concat]
        cases ws with
        | nil =>
            simp only [h.queryPound_eq hfree, selfOf_builder]
            split_ifs <;> rfl
        | cons v vs => exact ih (fun u hu => hws u (by simp [hu])) hpound.2 hfree

/-- The set of matches of a topic: the topic itself and the joined stored paths that accept its
words. -/
theorem Consistent.mem_getMatches_iff (h : s.Consistent) {topic : Str} (ht : topic ≠ [])
    (hpound : '#' ∉ topic) {x : Str} :
    x ∈ (s.getMatches topic).getD ∅ ↔ x = topic ∨ ∃ path, s.storedPath path = true ∧
      Accepts PLUS POUND (words topic) path ∧ x = [SLASH].intercalate path := by
  have hp : POUND ∉ words topic := fun hmem =>
    hpound ((mem_iff_exists_words ht (by decide)).2 ⟨POUND, hmem, by simp [POUND]⟩)
  have hq := h.queryMatches_eq (slashFree_words ht) hp (show SlashFree [] by simp [SlashFree])
  rw [builder_nil] at hq
  simp only [getMatches]
  rw [if_neg (by simp [ht]), Option.getD_some, mem_toFinset, mem_cons, hq, mem_map]
  refine or_congr_right ?_
  constructor
  · rintro ⟨path, hpath, rfl⟩
    obtain ⟨r, -, rfl, hst, hacc⟩ := (PrefixTree.mem_walk (prefixClosed_storedPath s) (by decide)
      (words_ne_nil ht) hp).1 hpath
    exact ⟨path, hst, hacc, rfl⟩
  · rintro ⟨path, hst, hacc, rfl⟩
    refine ⟨path, ?_, rfl⟩
    exact (PrefixTree.mem_walk (prefixClosed_storedPath s) (by decide) (words_ne_nil ht) hp).2
      ⟨path, (storedPath_iff.1 hst).1, rfl, hst, hacc⟩

/-- The joined words of a stored wildcard filter are a match iff they accept the words of the
topic. -/
lemma Consistent.join_words_mem_iff (h : s.Consistent) {key : MqttRouterKey} {router : MqttRouter}
    (hr : s.routerCache.get key = some router) (hw : isWildcard router.topic = true)
    {topic : Str} (ht : topic ≠ []) (hpound : '#' ∉ topic) (hplus : '+' ∉ topic) :
    [SLASH].intercalate (words router.topic) ∈ (s.getMatches topic).getD ∅ ↔
      Accepts PLUS POUND (words topic) (words router.topic) := by
  have hne := (h.valid _ _ hr).2
  have hwne := words_ne_nil hne
  have hst : s.storedPath (words router.topic) = true :=
    storedPath_iff.2 ⟨hwne, key, router, hr, hw, prefix_rfl⟩
  rw [h.mem_getMatches_iff ht hpound]
  constructor
  · rintro (heq | ⟨path, hpath, hacc, heq⟩)
    · -- a wildcard of the filter would be a character of the topic
      exfalso
      have hchar : ∀ c : Char, c ≠ SLASH → c ∈ router.topic → c ∈ topic := by
        intro c hc hmem
        rw [← heq, mem_intercalate hc]
        exact (mem_iff_exists_words hne hc).1 hmem
      rcases isWildcard_iff.1 hw with hc | hc
      · exact hpound (hchar _ (by decide) hc)
      · exact hplus (hchar _ (by decide) hc)
    · rwa [intercalate_injective (slashFree_words hne) (h.slashFree_of_stored hpath) hwne
        (storedPath_iff.1 hpath).1 heq]
  · intro hacc
    exact Or.inr ⟨_, hst, hacc, rfl⟩

/-- **The two matchers agree.**  For every router cache reached from the empty one, every stored
router with an accepted wildcard filter and every topic without wildcard characters, the trie
walk finds the joined words of the filter iff the topic matcher accepts the pair. -/
theorem getMatches_iff_topicMatch (ops : List Op) (key : MqttRouterKey) (router : MqttRouter)
    (hr : (run ops).routerCache.get key = some router) (hw : isWildcard router.topic = true)
    (hf : checkSubscribeTopic router.topic = true) (topic : Str) (ht : topic ≠ [])
    (hplus : '+' ∉ topic) (hpound : '#' ∉ topic) :
    [SLASH].intercalate (words router.topic) ∈ ((run ops).getMatches topic).getD ∅ ↔
      topicMatch topic router.topic = 1 := by
  rw [topicMatch_eq_one_iff ht hf]
  exact (consistent_run ops).join_words_mem_iff hr hw ht hpound hplus

/-- The case of a client that subscribes to `a/+` and a message on `a/b`. -/
theorem getMatches_iff_topicMatch_plus :
    [SLASH].intercalate (words "a/+".toList) ∈
        ((run [.save ⟨0, "c".toList, "a/+".toList, 1⟩]).getMatches "a/b".toList).getD ∅ ↔
      topicMatch "a/b".toList "a/+".toList = 1 :=
  getMatches_iff_topicMatch [.save ⟨0, "c".toList, "a/+".toList, 1⟩]
    ⟨"c".toList, "a/+".toList⟩ ⟨0, "c".toList, "a/+".toList, 1⟩ (by decide) (by decide)
    (by decide) "a/b".toList (by decide) (by decide) (by decide)

end RouterCache

end Stuart
