/-
Exactness of routing.

What a publish on a topic should reach is stated on the levels of topic and filter; what the
code reaches is decided by the words.  `mem_getMatches_stored_iff` gives the second for a stored
router: its filter is the topic itself, or it is the joined path of a trie node that accepts the
words of the topic.  The two agree for every store as long as the topic does not end in two
empty levels.  For a topic that does, the words are fewer than the levels, and a filter may
accept only the ones or only the others.
-/
import Stuart.Caches.RouterMatch
import Mathlib.Data.List.Perm.Basic

namespace Stuart

open List Lib TopicConst TopicUtil

/-- The filter matches the topic level by level. -/
def levelMatch (topic filter : Str) : Prop :=
  Accepts PLUS POUND (levels topic) (levels filter)

instance (topic filter : Str) : Decidable (levelMatch topic filter) :=
  inferInstanceAs (Decidable (Accepts _ _ _ _))

namespace RouterCache

/-- The routes that a publish should get: one for every stored router whose filter matches the
topic, with the smaller of the two QoS values, or the larger one if upgrading is configured. -/
def expectedRoutes (s : RouterCache) (upgradeQos : Bool) (topic : Str) (qos : ℤ) :
    List MqttRoute :=
  (s.routerCache.values.filter fun router => levelMatch topic router.topic).map fun router =>
    { nodeId := none
      clientId := router.clientId
      qos := if upgradeQos then max qos router.qos else min qos router.qos }

/-- `getRoutes` returns the expected routes, as a multiset. -/
def RoutesExact (s : RouterCache) (upgradeQos : Bool) (topic : Str) (qos : ℤ) : Prop :=
  s.getRoutes upgradeQos topic qos ~ s.expectedRoutes upgradeQos topic qos

instance (s : RouterCache) (upgradeQos : Bool) (topic : Str) (qos : ℤ) :
    Decidable (s.RoutesExact upgradeQos topic qos) :=
  inferInstanceAs (Decidable (_ ~ _))

/-- The filter is reached through the trie on the words of the topic: it does not end in two
empty levels, its words are a path of the trie, and they accept the words of the topic. -/
def wordMatch (s : RouterCache) (topic filter : Str) : Prop :=
  s.storedPath (words filter) = true ∧ ¬endsInEmptyLevels filter ∧
    Accepts PLUS POUND (words topic) (words filter)

instance (s : RouterCache) (topic filter : Str) : Decidable (s.wordMatch topic filter) :=
  inferInstanceAs (Decidable (_ ∧ _ ∧ _))

/-- The stored routers other than those of the topic itself that its words reach and its levels
do not. -/
def onlyByWords (s : RouterCache) (topic : Str) : List MqttRouter :=
  s.routerCache.values.filter fun router =>
    router.topic ≠ topic ∧ s.wordMatch topic router.topic ∧ ¬levelMatch topic router.topic

/-- The stored routers other than those of the topic itself that its levels match and its words
do not reach. -/
def onlyByLevels (s : RouterCache) (topic : Str) : List MqttRouter :=
  s.routerCache.values.filter fun router =>
    router.topic ≠ topic ∧ levelMatch topic router.topic ∧ ¬s.wordMatch topic router.topic

/-! ### The QoS of a route -/

lemma routeQos_eq (upgradeQos : Bool) (qos routerQos : ℤ) :
    routeQos upgradeQos qos routerQos =
      if upgradeQos then max qos routerQos else min qos routerQos := by
  simp only [routeQos, QosCalcFunction.upgrade, QosCalcFunction.downgrade]
  split_ifs <;> omega

lemma getRoutes_eq (s : RouterCache) (upgradeQos : Bool) {topic : Str} (ht : topic ≠ [])
    (qos : ℤ) :
    s.getRoutes upgradeQos topic qos = (s.routerCache.values.filter fun router =>
      router.topic ∈ (s.getMatches topic).getD ∅).map (route upgradeQos qos) := by
  rw [getRoutes, getMatches]
  rw [if_neg (by simp [ht])]
  simp only [Option.getD_some]
  rw [if_neg]
  exact Finset.ne_empty_of_mem (mem_toFinset.2 mem_cons_self)

lemma expectedRoutes_eq (s : RouterCache) (upgradeQos : Bool) (topic : Str) (qos : ℤ) :
    s.expectedRoutes upgradeQos topic qos = (s.routerCache.values.filter fun router =>
      levelMatch topic router.topic).map (route upgradeQos qos) := by
  simp only [expectedRoutes]
  refine map_congr_left fun router _ => ?_
  rw [route, routeQos_eq]

/-! ### What the words reach and what the levels match -/

variable {s : RouterCache}

lemma levelMatch_self {topic : Str} (hplus : '+' ∉ topic) (hpound : '#' ∉ topic) :
    levelMatch topic topic := by
  have hmem : ∀ c : Char, c ≠ SLASH → c ∉ topic → [c] ∉ levels topic := by
    intro c hc hnot hmem
    apply hnot
    rw [← join_levels topic]
    exact (mem_intercalate hc).2 ⟨[c], hmem, by simp⟩
  exact (accepts_literal (hmem _ (by decide) hplus) (hmem _ (by decide) hpound)).2 rfl

/-- A filter without wildcards matches its own topic only. -/
lemma eq_of_levelMatch {topic filter : Str} (hw : isWildcard filter ≠ true)
    (h : levelMatch topic filter) : topic = filter := by
  have hmem : ∀ c : Char, c ≠ SLASH → c ∉ filter → [c] ∉ levels filter := by
    intro c hc hnot hmem
    apply hnot
    rw [← join_levels filter]
    exact (mem_intercalate hc).2 ⟨[c], hmem, by simp⟩
  rw [Ne, isWildcard_iff, not_or] at hw
  have hlev := (accepts_literal (hmem '+' (by decide) hw.2) (hmem '#' (by decide) hw.1)).1 h
  rw [← join_levels topic, hlev, join_levels]

/-- A filter that ends in two empty levels matches only topics that do. -/
lemma endsInEmptyLevels_of_accepts {ws : List Str} {filter : Str}
    (hf : endsInEmptyLevels filter) (h : Accepts PLUS POUND ws (levels filter)) :
    [[], []] <:+ ws := by
  obtain ⟨l, hl⟩ := hf
  have hsplit : levels filter = (l ++ [[]]) ++ [[]] := by simp [← hl]
  rw [hsplit] at h
  obtain ⟨ws₁, rfl, h₁⟩ := h.concat (by decide) (by decide)
  obtain ⟨ws₂, rfl, -⟩ := h₁.concat (by decide) (by decide)
  exact ⟨ws₂, by simp⟩

/-- A stored router is selected by the query iff its topic is the published one or is reached
through the trie. -/
theorem Consistent.mem_getMatches_stored_iff (h : s.Consistent) {key : MqttRouterKey}
    {router : MqttRouter} (hr : s.routerCache.get key = some router) {topic : Str}
    (ht : topic ≠ []) (hpound : '#' ∉ topic) :
    router.topic ∈ (s.getMatches topic).getD ∅ ↔
      router.topic = topic ∨ s.wordMatch topic router.topic := by
  have hne := (h.valid _ _ hr).2
  rw [h.mem_getMatches_iff ht hpound]
  refine or_congr_right ?_
  constructor
  · rintro ⟨path, hst, hacc, heq⟩
    have hlev : levels router.topic = path := by
      rw [levels, heq]
      exact splitOn_intercalate SLASH (h.slashFree_of_stored hst) (storedPath_iff.1 hst).1
    have hclean : ¬endsInEmptyLevels router.topic := fun hend =>
      not_suffix_words ht (endsInEmptyLevels_of_accepts hend (by rwa [hlev]))
    have hwords := (words_eq_levels_iff hne).2 hclean
    exact ⟨by rwa [hwords, hlev], hclean, by rwa [hwords, hlev]⟩
  · rintro ⟨hst, hclean, hacc⟩
    refine ⟨words router.topic, hst, hacc, ?_⟩
    rw [(words_eq_levels_iff hne).2 hclean, join_levels]

/-- For a topic that does not end in two empty levels the words reach what the levels match. -/
lemma Consistent.wordMatch_iff_levelMatch (h : s.Consistent) {key : MqttRouterKey}
    {router : MqttRouter} (hr : s.routerCache.get key = some router) {topic : Str}
    (ht : topic ≠ []) (hplus : '+' ∉ topic) (hpound : '#' ∉ topic)
    (hclean : ¬endsInEmptyLevels topic) :
    router.topic = topic ∨ s.wordMatch topic router.topic ↔ levelMatch topic router.topic := by
  have hne := (h.valid _ _ hr).2
  have htw := (words_eq_levels_iff ht).2 hclean
  constructor
  · rintro (heq | ⟨-, hfclean, hacc⟩)
    · rw [heq]
      exact levelMatch_self hplus hpound
    · rwa [htw, (words_eq_levels_iff hne).2 hfclean] at hacc
  · intro hmatch
    by_cases hw : isWildcard router.topic = true
    · have hfclean : ¬endsInEmptyLevels router.topic := fun hend =>
        hclean (endsInEmptyLevels_of_accepts hend hmatch)
      have hfw := (words_eq_levels_iff hne).2 hfclean
      refine Or.inr ⟨?_, hfclean, ?_⟩
      · exact storedPath_iff.2 ⟨words_ne_nil hne, key, router, hr, hw, prefix_rfl⟩
      · rwa [htw, hfw]
    · exact Or.inl (eq_of_levelMatch hw hmatch).symm

/-! ### Exactness -/

/-- Two selections from one list have the same images as multisets iff what only the one selects
has the same images as what only the other selects. -/
lemma map_filter_perm_iff {α β : Type*} (l : List α) (p q : α → Bool) (f : α → β) :
    (l.filter p).map f ~ (l.filter q).map f ↔
      (l.filter fun x => p x && !q x).map f ~ (l.filter fun x => q x && !p x).map f := by
  have hsplit : ∀ p q : α → Bool, (l.filter p).map f ~
      (l.filter fun x => p x && q x).map f ++ (l.filter fun x => p x && !q x).map f := by
    intro p q
    have hperm := (filter_append_perm q (l.filter p)).symm.map f
    rw [map_append, filter_filter, filter_filter] at hperm
    simpa only [Bool.and_comm] using hperm
  have hcomm : (l.filter fun x => q x && p x) = l.filter fun x => p x && q x := by
    simp only [Bool.and_comm]
  have hq := hsplit q p
  rw [hcomm] at hq
  rw [(hsplit p q).congr_left, hq.congr_right, perm_append_left_iff]

/-- The router cache after one subscription. -/
lemma run_save_routerCache (router : MqttRouter) (hc : router.clientId ≠ [])
    (ht : router.topic ≠ []) :
    (run [.save router]).routerCache = (∅ : PlainMap _ _).put router.key router := by
  simp [run, step, save, empty, IdUtil.validateClientId, validateTopic, hc, ht]

/-- The store that shows a topic with two empty last levels being routed wrongly: one client
subscribes to the topic with a `+` as its last level. -/
def plusRouter (topic : Str) : MqttRouter :=
  { nodeId := 0, clientId := ['c'], topic := topic ++ ['+'], qos := 0 }

/-- A published topic with a `+` appended after its last slash: an accepted filter with the
levels of the topic, the last one replaced. -/
lemma plus_of_endsInEmptyLevels {topic : Str} (ht : topic ≠ []) (hplus : '+' ∉ topic)
    (hpound : '#' ∉ topic) (hend : endsInEmptyLevels topic) :
    checkSubscribeTopic (topic ++ ['+']) = true ∧ levelMatch topic (topic ++ ['+']) ∧
      ∀ s : RouterCache, ¬s.wordMatch topic (topic ++ ['+']) := by
  obtain ⟨l, hl⟩ := hend
  obtain ⟨r, rfl, hr⟩ := exists_of_splitOn_concat_nil ht
    (show topic.splitOn SLASH = (l ++ [[]]) ++ [[]] by simpa [levels] using hl.symm)
  have hlr : levels r = l ++ [[]] := hr
  have hlev : levels (r ++ [SLASH] ++ ['+']) = levels r ++ [['+']] := by
    have hone : ['+'].splitOn SLASH = [['+']] := by decide
    rw [append_assoc, levels, singleton_append, splitOn_append_cons_self, hone]
    rfl
  have hlast : (r ++ [SLASH] ++ ['+']).getLast? ≠ some SLASH := by simp [SLASH]
  have hchar : ∀ w ∈ levels r, '#' ∉ w ∧ '+' ∉ w := by
    intro w hw
    refine ⟨fun hc => hpound ?_, fun hc => hplus ?_⟩ <;>
    · refine mem_append_left _ ?_
      rw [← join_levels r]
      exact (mem_intercalate (by decide)).2 ⟨w, hw, hc⟩
  refine ⟨?_, ?_, fun s hmatch => ?_⟩
  · have hsplit : split (r ++ [SLASH] ++ ['+']) = levels r ++ [['+']] := by
      rw [split_eq _ (by simp), hlev, rdropWhile_concat_neg _ _ _ (by simp)]
    have hnot : '#' ∉ r ++ [SLASH] ++ ['+'] := by
      rw [mem_append, not_or]
      exact ⟨hpound, by decide⟩
    simp only [checkSubscribeTopic]
    rw [if_neg (by simp), if_neg (by simpa using fun h => absurd h (by simpa using hnot)), hsplit,
      all_eq_true]
    intro w hw
    rcases mem_append.1 hw with hw | hw
    · simp [hchar w hw]
    · simp [mem_singleton.1 hw]
  · rw [levelMatch, hlev, (words_concat_slash r).1]
    exact Accepts.append_self _ (accepts_cons_cons.2 (Or.inr ⟨Or.inl rfl, by simp⟩))
  · -- the words of the topic are too few
    obtain ⟨-, -, hacc⟩ := hmatch
    rw [words_of_not_slash (by simp) hlast, hlev, (words_concat_slash r).2, hlr,
      rdropWhile_concat_pos _ _ _ (by simp)] at hacc
    have hp : POUND ∉ l ++ [[]] ++ [['+']] := by
      intro hmem
      rw [← hlr, mem_append] at hmem
      rcases hmem with hmem | hmem
      · exact (hchar _ hmem).1 (by simp [POUND])
      · exact absurd hmem (by decide)
    -- without a `#` both have the same number of levels
    have hlen := ((accepts_iff_of_not_mem hp).1 hacc).1
    have hle := ( rdropWhile_prefix (fun w : Str => w.isEmpty) l).length_le
    simp only [length_append, length_cons, length_nil] at hlen
    omega

/-- What the query selects, against what it should select. -/
lemma Consistent.routesExact_iff (h : s.Consistent) (upgradeQos : Bool) {topic : Str}
    (ht : topic ≠ []) (hplus : '+' ∉ topic) (hpound : '#' ∉ topic) (qos : ℤ) :
    s.RoutesExact upgradeQos topic qos ↔ (s.onlyByWords topic).map (route upgradeQos qos) ~
      (s.onlyByLevels topic).map (route upgradeQos qos) := by
  have hself := levelMatch_self hplus hpound
  -- a stored router is selected iff its own topic is, so the query is a filter
  have hsel : ∀ router ∈ s.routerCache.values,
      decide (router.topic ∈ (s.getMatches topic).getD ∅) =
        decide (router.topic = topic ∨ s.wordMatch topic router.topic) := by
    intro router hmem
    obtain ⟨key, hkey⟩ := (PlainMap.mem_values_iff _ _).1 hmem
    rw [decide_eq_decide]
    exact h.mem_getMatches_stored_iff hkey ht hpound
  simp only [RoutesExact]
  rw [getRoutes_eq s upgradeQos ht, expectedRoutes_eq, filter_congr hsel, map_filter_perm_iff]
  have hwords : (s.routerCache.values.filter fun router =>
      decide (router.topic = topic ∨ s.wordMatch topic router.topic) &&
        !decide (levelMatch topic router.topic)) = s.onlyByWords topic := by
    refine filter_congr fun router _ => ?_
    by_cases heq : router.topic = topic <;> simp [heq, hself]
  have hlevels : (s.routerCache.values.filter fun router =>
      decide (levelMatch topic router.topic) &&
        !decide (router.topic = topic ∨ s.wordMatch topic router.topic)) =
      s.onlyByLevels topic := by
    refine filter_congr fun router _ => ?_
    by_cases heq : router.topic = topic <;> simp [heq]
  rw [hwords, hlevels]

/-- For a topic that does not end in two empty levels the two selections are the same. -/
lemma Consistent.only_eq_nil (h : s.Consistent) {topic : Str} (ht : topic ≠ [])
    (hplus : '+' ∉ topic) (hpound : '#' ∉ topic) (hclean : ¬endsInEmptyLevels topic) :
    s.onlyByWords topic = [] ∧ s.onlyByLevels topic = [] := by
  simp only [onlyByWords, onlyByLevels]
  simp only [filter_eq_nil_iff, decide_eq_true_iff]
  constructor <;>
  · rintro router hmem ⟨hne, h1, h2⟩
    obtain ⟨key, hkey⟩ := (PlainMap.mem_values_iff _ _).1 hmem
    have hiff := h.wordMatch_iff_levelMatch hkey ht hplus hpound hclean
    tauto

/-- **When routing is exact.**  For every router cache reached with accepted filters and every
publish topic, `getRoutes` is exact iff the topic does not end in two empty levels or the routes
of the routers that only its words reach are those of the routers that only its levels match.
A topic for which routing is exact on every store is one that does not end in two empty levels. -/
theorem getRoutes_exact_iff (topic : Str) (ht : checkPublishTopic topic = true) :
    (∀ ops : List Op, (∀ op ∈ ops, op.Accepted) → ∀ (upgradeQos : Bool) (qos : ℤ),
      ((run ops).RoutesExact upgradeQos topic qos ↔ ¬endsInEmptyLevels topic ∨
        ((run ops).onlyByWords topic).map (route upgradeQos qos) ~
          ((run ops).onlyByLevels topic).map (route upgradeQos qos))) ∧
    ((∀ ops : List Op, (∀ op ∈ ops, op.Accepted) → ∀ (upgradeQos : Bool) (qos : ℤ),
      (run ops).RoutesExact upgradeQos topic qos) ↔ ¬endsInEmptyLevels topic) := by
  obtain ⟨hne, hpound, hplus⟩ := checkPublishTopic_iff.1 ht
  have hclean : ∀ s : RouterCache, s.Consistent → ¬endsInEmptyLevels topic →
      ∀ (upgradeQos : Bool) (qos : ℤ), s.RoutesExact upgradeQos topic qos := by
    intro s h hend upgradeQos qos
    obtain ⟨h1, h2⟩ := h.only_eq_nil hne hplus hpound hend
    rw [h.routesExact_iff upgradeQos hne hplus hpound, h1, h2]
  refine ⟨fun ops _ upgradeQos qos => ?_, fun hall hend => ?_, fun hend ops _ => ?_⟩
  · rw [← (consistent_run ops).routesExact_iff upgradeQos hne hplus hpound]
    exact ⟨Or.inr, fun h => h.elim (fun hend =>
      hclean _ (consistent_run ops) hend upgradeQos qos) id⟩
  · -- a subscription with a `+` in the last place is matched and not reached
    obtain ⟨hcheck, hmatch, hnot⟩ := plus_of_endsInEmptyLevels hne hplus hpound hend
    have hexact := hall [.save (plusRouter topic)] (by simpa [Op.Accepted, plusRouter] using hcheck)
      false 0
    rw [(consistent_run _).routesExact_iff false hne hplus hpound] at hexact
    have hvalues : (run [.save (plusRouter topic)]).routerCache.values = [plusRouter topic] := by
      rw [run_save_routerCache _ (by simp [plusRouter]) (by simp [plusRouter]),
        PlainMap.values_put, PlainMap.remove_of_get_none (PlainMap.get_empty _)]
      rfl
    have hlevels : (run [.save (plusRouter topic)]).onlyByLevels topic = [plusRouter topic] := by
      simp only [onlyByLevels]
      rw [hvalues]
      simp [plusRouter, hmatch, hnot]
    have hwords : (run [.save (plusRouter topic)]).onlyByWords topic = [] := by
      simp only [onlyByWords]
      rw [hvalues]
      simp [plusRouter, hnot]
    rw [hlevels, hwords] at hexact
    exact absurd hexact.length_eq (by simp)
  · exact hclean _ (consistent_run ops) hend

/-- A topic that meets the condition: `a/` is routed exactly to a client of `a/+`. -/
theorem getRoutes_exact_slash :
    (run [.save (plusRouter "a/".toList)]).RoutesExact false "a/".toList 0 :=
  (getRoutes_exact_iff "a/".toList (by decide)).2.2 (by decide)
    [.save (plusRouter "a/".toList)] (by decide) false 0

/-- A subscription to `a/+` gets the message that is published on `a//`, which has one level
more. -/
theorem getRoutes_not_exact :
    ¬(∀ ops : List Op, (∀ op ∈ ops, op.Accepted) → ∀ topic : Str,
      checkPublishTopic topic = true → ∀ (upgradeQos : Bool) (qos : ℤ),
        (run ops).RoutesExact upgradeQos topic qos) := by
  intro h
  have := h [.save ⟨0, "c".toList, "a/+".toList, 0⟩] (by decide) "a//".toList (by decide) false 0
  exact absurd this (by decide)

/-! ### The routes to one client -/

/-- The stored routers of a client whose filters match a topic. -/
def matching (s : RouterCache) (clientId topic : Str) : List MqttRouter :=
  s.routerCache.values.filter fun router =>
    router.clientId = clientId ∧ levelMatch topic router.topic

/-- What the query selects of a client are its routers that match. -/
lemma Consistent.filter_values {s : RouterCache} (h : s.Consistent) {topic : Str}
    (ht : checkPublishTopic topic = true) (hclean : ¬endsInEmptyLevels topic) (clientId : Str) :
    (s.routerCache.values.filter fun router =>
      decide (router.topic ∈ (s.getMatches topic).getD ∅)).filter
        (fun router => router.clientId = clientId) = s.matching clientId topic := by
  obtain ⟨hne, hpound, hplus⟩ := checkPublishTopic_iff.1 ht
  rw [filter_filter, matching]
  refine filter_congr fun router hmem => ?_
  obtain ⟨key, hget⟩ := (PlainMap.mem_values_iff _ _).1 hmem
  have hmatch := (h.mem_getMatches_stored_iff hget hne hpound).trans
    (h.wordMatch_iff_levelMatch hget hne hplus hpound hclean)
  rw [Bool.eq_iff_iff]
  simp only [Bool.and_eq_true, decide_eq_true_eq, hmatch]

/-- The routes to a client are those of its routers that match. -/
lemma Consistent.filter_getRoutes {s : RouterCache} (h : s.Consistent) (upgradeQos : Bool)
    {topic : Str} (ht : checkPublishTopic topic = true) (hclean : ¬endsInEmptyLevels topic)
    (qos : ℤ) (clientId : Str) :
    (s.getRoutes upgradeQos topic qos).filter (fun route => route.clientId = clientId) =
      (s.matching clientId topic).map (route upgradeQos qos) := by
  rw [getRoutes_eq s upgradeQos (checkPublishTopic_iff.1 ht).1, filter_map,
    ← h.filter_values ht hclean]
  rfl

/-- What matches of a client depends on its own routers. -/
lemma Consistent.matching_perm {s s' : RouterCache} (h : s.Consistent) (h' : s'.Consistent)
    {clientId : Str} (hget : ∀ topic, s'.routerCache.get ⟨clientId, topic⟩ =
      s.routerCache.get ⟨clientId, topic⟩) (topic : Str) :
    s'.matching clientId topic ~ s.matching clientId topic := by
  have hnodup : ∀ {s : RouterCache}, s.Consistent → s.routerCache.values.Nodup := fun h =>
    (PlainMap.nodup_map_values h.keyed).of_map
  have hmem : ∀ {s : RouterCache}, s.Consistent → ∀ router, router ∈ s.matching clientId topic ↔
      s.routerCache.get ⟨clientId, router.topic⟩ = some router ∧
        levelMatch topic router.topic := by
    intro s h router
    rw [matching, mem_filter, PlainMap.mem_values_iff, decide_eq_true_eq]
    constructor
    · rintro ⟨⟨key, hkey⟩, rfl, hmatch⟩
      have hown := h.keyed key router hkey
      subst hown
      exact ⟨hkey, hmatch⟩
    · rintro ⟨hkey, hmatch⟩
      have hown := h.keyed _ router hkey
      exact ⟨⟨_, hkey⟩, (MqttRouterKey.mk.inj hown).1, hmatch⟩
  refine (perm_ext_iff_of_nodup ((hnodup h').filter _) ((hnodup h).filter _)).2 fun router => ?_
  refine (hmem h' router).trans (Iff.trans ?_ (hmem h router).symm)
  rw [hget]

end RouterCache

end Stuart
