/-
The trie of the router cache counts the wildcard routers.

A node of the trie belongs to a path, a nonempty list of words; its key is the pair of the
joined words above it and its own word.  On paths of slash-free words the key determines the
path (`nodeKey_injective`), and the nodes that `topic2Trie` lists for a topic are those of the
nonempty prefixes of its words (`mem_nodeKeys_iff`), each once.  So one run of `save` or
`delete` over them changes the count of each by one, and the invariant `Consistent` is kept:
the trie holds for every key the number of stored wildcard routers with a node of this key.
-/
import Stuart.Caches.RouterCache
import Stuart.Lib.RefCount
import Mathlib.Tactic.Ring

namespace Stuart

open List Lib TopicConst TopicUtil

namespace RouterCache

/-! ### Paths and their keys -/

/-- What stands in the string builder of `topic2Trie` after the words `pre`. -/
def builder (pre : List Str) : Option Str :=
  if pre = [] then none else some ([SLASH].intercalate pre)

/-- The key of the node of a path. -/
def nodeKey (path : List Str) : MqttTrieKey := ⟨builder path.dropLast, path.getLast?.getD []⟩

@[simp] lemma builder_nil : builder [] = none := rfl

lemma selfOf_builder (pre : List Str) (w : Str) :
    selfOf (builder pre) w = [SLASH].intercalate (pre ++ [w]) := by
  simp only [builder]
  by_cases h : pre = []
  · simp [h, selfOf]
  · rw [if_neg h, intercalate_concat h]
    rfl

lemma builder_concat (pre : List Str) (w : Str) :
    builder (pre ++ [w]) = some (selfOf (builder pre) w) := by
  rw [selfOf_builder, builder, if_neg (by simp)]

lemma nodeKey_concat (pre : List Str) (w : Str) : nodeKey (pre ++ [w]) = ⟨builder pre, w⟩ := by
  simp [nodeKey]

/-- A slash-free list of words. -/
def SlashFree (ws : List Str) : Prop := ∀ w ∈ ws, SLASH ∉ w

lemma slashFree_words {topic : Str} (h : topic ≠ []) : SlashFree (words topic) := fun w hw =>
  slash_not_mem_levels topic w (mem_levels_of_mem_words h hw)

lemma builder_injective {p q : List Str} (hp : SlashFree p) (hq : SlashFree q)
    (h : builder p = builder q) : p = q := by
  simp only [builder] at h
  by_cases hp0 : p = [] <;> by_cases hq0 : q = []
  · rw [hp0, hq0]
  · simp [hp0, hq0] at h
  · simp [hp0, hq0] at h
  · rw [if_neg hp0, if_neg hq0, Option.some.injEq] at h
    exact intercalate_injective hp hq hp0 hq0 h

/-- On nonempty slash-free paths the key determines the path. -/
lemma nodeKey_injective {p q : List Str} (hp : SlashFree p) (hq : SlashFree q) (hp0 : p ≠ [])
    (hq0 : q ≠ []) (h : nodeKey p = nodeKey q) : p = q := by
  obtain ⟨p', w, rfl⟩ := eq_nil_or_concat p |>.resolve_left hp0
  obtain ⟨q', v, rfl⟩ := eq_nil_or_concat q |>.resolve_left hq0
  simp only [concat_eq_append] at hp hq h ⊢
  rw [nodeKey_concat, nodeKey_concat, MqttTrieKey.mk.injEq] at h
  have hpq : p' = q' := builder_injective (fun x hx => hp x (by simp [hx]))
    (fun x hx => hq x (by simp [hx])) h.1
  rw [hpq, h.2]

/-! ### The nodes of a topic -/

/-- The keys of the trie nodes of a topic. -/
def nodeKeys (topic : Str) : List MqttTrieKey := (nodes topic).map MqttTrie.key

lemma mem_keys_topic2TrieFrom {ws pre : List Str} {key : MqttTrieKey} :
    key ∈ (topic2TrieFrom (builder pre) ws).map MqttTrie.key ↔
      ∃ q, q ≠ [] ∧ q <+: ws ∧ key = nodeKey (pre ++ q) := by
  induction ws generalizing pre with
  | nil => simp [topic2TrieFrom, prefix_nil]
  | cons w ws ih =>
      rw [topic2TrieFrom, ← builder_concat, map_cons, mem_cons, ih]
      constructor
      · rintro (rfl | ⟨q, hq, hpre, rfl⟩)
        · exact ⟨[w], by simp, ⟨ws, rfl⟩, (nodeKey_concat pre w).symm⟩
        · exact ⟨w :: q, by simp, (prefix_cons_inj w).2 hpre, by simp⟩
      · rintro ⟨q, hq, hpre, rfl⟩
        obtain ⟨v, q, rfl⟩ := exists_cons_of_ne_nil hq
        obtain ⟨rfl, hq'⟩ := cons_prefix_cons.1 hpre
        by_cases hq0 : q = []
        · exact Or.inl (by rw [hq0, nodeKey_concat]; rfl)
        · exact Or.inr ⟨q, hq0, hq', by simp⟩

/-- The keys of a wildcard topic are those of the nonempty prefixes of its words. -/
lemma mem_nodeKeys_iff {topic : Str} (h : topic ≠ []) {key : MqttTrieKey} :
    key ∈ nodeKeys topic ↔
      isWildcard topic = true ∧ ∃ q, q ≠ [] ∧ q <+: words topic ∧ key = nodeKey q := by
  simp only [nodeKeys, nodes]
  by_cases hw : isWildcard topic = true
  · rw [if_pos hw, topic2Trie, if_neg (by simp [h])]
    have := @mem_keys_topic2TrieFrom (words topic) [] key
    rw [builder_nil] at this
    simp [this, hw]
  · simp [hw]

/-- Below a nonempty parent every node has a parent string at least as long. -/
lemma length_le_of_mem_topic2TrieFrom {ws : List Str} {p : Str} :
    ∀ node ∈ topic2TrieFrom (some p) ws, ∃ q, node.parent = some q ∧ p.length ≤ q.length := by
  induction ws generalizing p with
  | nil => simp [topic2TrieFrom]
  | cons w ws ih =>
      intro node hnode
      rw [topic2TrieFrom, mem_cons] at hnode
      rcases hnode with rfl | hnode
      · exact ⟨p, rfl, le_rfl⟩
      · obtain ⟨q, hq, hle⟩ := ih node hnode
        refine ⟨q, hq, ?_⟩
        simp only [selfOf, length_append, length_cons] at hle
        omega

lemma nodup_topic2TrieFrom (ws : List Str) (parent : Option Str) :
    ((topic2TrieFrom parent ws).map MqttTrie.key).Nodup := by
  induction ws generalizing parent with
  | nil => simp [topic2TrieFrom]
  | cons w ws ih =>
      rw [topic2TrieFrom, map_cons, nodup_cons]
      refine ⟨fun hmem => ?_, ih _⟩
      obtain ⟨node, hnode, hkey⟩ := mem_map.1 hmem
      obtain ⟨q, hq, hle⟩ := length_le_of_mem_topic2TrieFrom node hnode
      have hparent : node.parent = parent := congrArg MqttTrieKey.parent hkey
      rw [hq] at hparent
      subst hparent
      simp only [selfOf, length_append, length_cons] at hle
      omega

/-- No key occurs twice among the nodes of a topic. -/
lemma nodup_nodeKeys (topic : Str) : (nodeKeys topic).Nodup := by
  simp only [nodeKeys, nodes, topic2Trie]
  split_ifs
  · simp
  · exact nodup_topic2TrieFrom _ _
  · simp

/-- The node of a key that counts `n` routers. -/
def mkNode (key : MqttTrieKey) (n : ℕ) : MqttTrie :=
  { parent := key.parent, word := key.word, self := selfOf key.parent key.word, count := n }

@[simp] lemma mkNode_key (key : MqttTrieKey) (n : ℕ) : (mkNode key n).key = key := rfl

lemma eq_mkNode_of_mem {ws : List Str} {parent : Option Str} :
    ∀ node ∈ topic2TrieFrom parent ws, node = mkNode node.key 1 := by
  induction ws generalizing parent with
  | nil => simp [topic2TrieFrom]
  | cons w ws ih =>
      intro node hnode
      rw [topic2TrieFrom, mem_cons] at hnode
      rcases hnode with rfl | hnode
      · rfl
      · exact ih node hnode

lemma nodes_eq_map (topic : Str) : nodes topic = (nodeKeys topic).map fun key => mkNode key 1 := by
  have h : ∀ node ∈ nodes topic, mkNode node.key 1 = node := by
    simp only [nodes, topic2Trie]
    split_ifs
    · simp
    · exact fun node hnode => (eq_mkNode_of_mem node hnode).symm
    · simp
  rw [nodeKeys, map_map]
  conv_lhs => rw [← map_id (nodes topic)]
  exact map_congr_left fun node hnode => (h node hnode).symm

/-! ### The invariant -/

/-- The number of stored wildcard routers with a node of the given key. -/
def refs (s : RouterCache) (key : MqttTrieKey) : ℕ :=
  PlainMap.count (fun _ router => decide (key ∈ nodeKeys router.topic)) s.routerCache

/-- Every router is stored under its own key, with a valid client id and topic, and the trie
counts the wildcard routers. -/
structure Consistent (s : RouterCache) : Prop where
  keyed : ∀ key router, s.routerCache.get key = some router → router.key = key
  valid : ∀ key router, s.routerCache.get key = some router →
    IdUtil.validateClientId router.clientId = true ∧ router.topic ≠ []
  counts : RefCount.Counts mkNode s.trieCache s.refs

lemma addNode_counts {m : PlainMap MqttTrieKey MqttTrie} {refs : MqttTrieKey → ℕ}
    (key : MqttTrieKey) (h : RefCount.Counts mkNode m refs) :
    RefCount.Counts mkNode (addNode m (mkNode key 1))
      fun key' => refs key' + if key' = key then 1 else 0 := by
  have : addNode m (mkNode key 1) = RefCount.acquire (mkNode key 1)
      (fun node => { node with count := node.count + 1 }) m key := by
    rw [addNode, RefCount.acquire, mkNode_key]
    cases m.get key <;> rfl
  rw [this]
  exact h.acquire rfl fun n => rfl

lemma removeNode_counts {m : PlainMap MqttTrieKey MqttTrie} {refs : MqttTrieKey → ℕ}
    (key : MqttTrieKey) (h : RefCount.Counts mkNode m refs) :
    RefCount.Counts mkNode (removeNode m (mkNode key 1))
      fun key' => refs key' - if key' = key then 1 else 0 := by
  have : removeNode m (mkNode key 1) = RefCount.release MqttTrie.count
      (fun node => { node with count := node.count - 1 }) m key := by
    rw [removeNode, RefCount.release, mkNode_key]
    cases m.get key <;> rfl
  rw [this]
  exact h.release (fun n => rfl) fun n => rfl

lemma consistent_empty : Consistent empty where
  keyed := by simp [empty]
  valid := by simp [empty]
  counts := RefCount.counts_empty

/-- A step that stores, under the key of an old router, a router with the same key. -/
lemma Consistent.put_old {s : RouterCache} (h : s.Consistent) {router old : MqttRouter}
    (hold : s.routerCache.get router.key = some old) :
    Consistent { s with routerCache := s.routerCache.put router.key router } := by
  have hkey := h.keyed _ _ hold
  have htopic : old.topic = router.topic := congrArg MqttRouterKey.topic hkey
  have hclient : old.clientId = router.clientId := congrArg MqttRouterKey.clientId hkey
  refine ⟨fun key r hr => ?_, fun key r hr => ?_, h.counts.congr fun key => ?_⟩
  · rw [PlainMap.get_put] at hr
    split_ifs at hr with hk
    · rw [hk, ← Option.some.inj hr]
    · exact h.keyed key r hr
  · rw [PlainMap.get_put] at hr
    split_ifs at hr with hk
    · rw [← Option.some.inj hr, ← htopic, ← hclient]
      exact h.valid _ _ hold
    · exact h.valid key r hr
  · simp only [refs]
    rw [PlainMap.count_put, PlainMap.count_of_get _ hold, htopic]

theorem Consistent.save {s : RouterCache} (h : s.Consistent) (router : MqttRouter) :
    (s.save router).Consistent := by
  simp only [RouterCache.save]
  split_ifs with hv
  · exact h
  · have hvalid : IdUtil.validateClientId router.clientId = true ∧ router.topic ≠ [] := by
      simpa using hv
    cases hget : s.routerCache.get router.key with
    | some old =>
        have hkey := h.keyed _ _ hget
        obtain ⟨hclient, htopic⟩ := MqttRouterKey.mk.inj hkey
        -- the old entry has the same client and topic, so the trie stays as it is
        have hrouter : { old with nodeId := router.nodeId, qos := router.qos } = router := by
          cases old; cases router; simp_all
        simp only [hrouter]
        exact h.put_old hget
    | none =>
        refine ⟨fun key r hr => ?_, fun key r hr => ?_, ?_⟩
        · simp only [PlainMap.get_put] at hr
          split_ifs at hr with hk
          · rw [hk, ← Option.some.inj hr]
          · exact h.keyed key r hr
        · simp only [PlainMap.get_put] at hr
          split_ifs at hr with hk
          · rwa [← Option.some.inj hr]
          · exact h.valid key r hr
        · -- every node on the path of the new router gets one more reference
          rw [nodes_eq_map, foldl_map]
          refine (h.counts.acquire_all (fun m refs key hm => addNode_counts key hm)
            (nodup_nodeKeys router.topic)).congr fun key => ?_
          simp only [refs]
          rw [PlainMap.count_put, PlainMap.remove_of_get_none hget]
          simp

theorem Consistent.delete {s : RouterCache} (h : s.Consistent) (clientId topic : Str) :
    (s.delete clientId topic).Consistent := by
  simp only [RouterCache.delete]
  split_ifs with hv hc
  · exact h
  · obtain ⟨router, hget⟩ := Option.ne_none_iff_exists'.1 ((PlainMap.containsKey_iff _ _).1 hc)
    have htopic : router.topic = topic := congrArg MqttRouterKey.topic (h.keyed _ _ hget)
    refine ⟨fun key r hr => ?_, fun key r hr => ?_, ?_⟩
    · simp only [PlainMap.get_remove] at hr
      split_ifs at hr
      exact h.keyed key r hr
    · simp only [PlainMap.get_remove] at hr
      split_ifs at hr
      exact h.valid key r hr
    · -- the nodes are visited in reverse; every one of them loses one reference
      rw [nodes_eq_map, ← map_reverse, foldl_map]
      refine (h.counts.release_all (fun m refs key hm => removeNode_counts key hm)
        (nodup_reverse.2 (nodup_nodeKeys topic))).congr fun key => ?_
      simp only [refs]
      rw [PlainMap.count_of_get _ hget, htopic]
      by_cases hmem : key ∈ nodeKeys topic <;> simp [hmem]
  · exact h

theorem Consistent.deleteClient {s : RouterCache} (h : s.Consistent) (clientId : Str) :
    (s.deleteClient clientId).Consistent := by
  simp only [RouterCache.deleteClient]
  split_ifs with hv
  · exact h
  · generalize s.topicsOf clientId = topics
    induction topics generalizing s with
    | nil => exact h
    | cons topic topics ih => exact ih (h.delete clientId topic)

theorem consistent_run (ops : List Op) : (run ops).Consistent := by
  induction ops using List.reverseRecOn with
  | nil => exact consistent_empty
  | append_singleton ops op ih =>
      rw [run, foldl_append]
      cases op with
      | save router => exact ih.save router
      | delete clientId topic => exact ih.delete clientId topic
      | deleteClient clientId => exact ih.deleteClient clientId

/-- **The trie counts the wildcard routers.**  After any sequence of operations the trie has an
entry for a key iff a stored wildcard router has a node of this key; the entry counts these
routers, and its `self` is the word below its parent. -/
theorem trie_counts_routers (ops : List Op) (key : MqttTrieKey) :
    ((run ops).trieCache.containsKey key = true ↔
        ∃ k router, (run ops).routerCache.get k = some router ∧ isWildcard router.topic = true ∧
          ∃ node ∈ topic2Trie router.topic, node.parent = key.parent ∧ node.word = key.word) ∧
      ∀ node, (run ops).trieCache.get key = some node →
        node.count = PlainMap.count (fun _ router => isWildcard router.topic &&
            (topic2Trie router.topic).any fun n => n.parent = key.parent ∧ n.word = key.word)
          (run ops).routerCache ∧
        node.self = match key.parent with
          | none => key.word
          | some parent => parent ++ '/' :: key.word := by
  have h := consistent_run ops
  have hmem : ∀ topic : Str, key ∈ nodeKeys topic ↔ isWildcard topic = true ∧
      ∃ node ∈ topic2Trie topic, node.parent = key.parent ∧ node.word = key.word := by
    intro topic
    obtain ⟨parent, word⟩ := key
    simp only [nodeKeys, nodes]
    by_cases hw : isWildcard topic = true <;> simp [hw, MqttTrie.key]
  have hrefs : (run ops).refs key = PlainMap.count (fun _ router => isWildcard router.topic &&
      (topic2Trie router.topic).any fun n => n.parent = key.parent ∧ n.word = key.word)
      (run ops).routerCache := by
    simp only [refs]
    congr 1
    funext k router
    rw [Bool.eq_iff_iff, decide_eq_true_iff, hmem]
    simp
  have hcount := h.counts key
  constructor
  · rw [PlainMap.containsKey_iff, hcount]
    -- an entry is there iff its count is positive
    have hpos : 0 < (run ops).refs key ↔ ∃ k router, (run ops).routerCache.get k = some router ∧
        key ∈ nodeKeys router.topic := by
      simp only [refs]
      rw [PlainMap.count_pos_iff]
      simp
    simp only [← hmem, ← hpos]
    split_ifs with h0
    · simp [h0]
    · simp [Nat.pos_of_ne_zero h0]
  · intro node hnode
    rw [hcount] at hnode
    split_ifs at hnode with h0
    obtain rfl := Option.some.inj hnode
    exact ⟨hrefs, rfl⟩

end RouterCache

end Stuart
