/-
The routers of one client in the router cache.

Every operation of the session services works on the routers of a single client: it saves or
deletes one of them, deletes all of them, or moves them to another node.  The lemmas say which
router is stored for a client and a topic afterwards; on a consistent cache the routers of the
other clients stay as they are.
-/
import Stuart.Caches.RouterTrie

namespace Stuart

open List Lib TopicUtil

namespace RouterCache

/-- The stored router of a client for a topic. -/
def routerOf (s : RouterCache) (clientId topic : Str) : Option MqttRouter :=
  s.routerCache.get ⟨clientId, topic⟩

variable {s : RouterCache}

lemma Consistent.clientId_of_routerOf (h : s.Consistent) {clientId topic : Str}
    {router : MqttRouter} (hget : s.routerOf clientId topic = some router) :
    router.clientId = clientId ∧ router.topic = topic :=
  MqttRouterKey.mk.inj (h.keyed _ _ hget)

/-- No router is stored under a client id or a topic that is not valid. -/
lemma Consistent.routerOf_of_not_valid (h : s.Consistent) {clientId topic : Str}
    (hv : (!IdUtil.validateClientId clientId || !validateTopic topic) = true) :
    s.routerOf clientId topic = none := by
  by_contra hne
  obtain ⟨router, hget⟩ := Option.ne_none_iff_exists'.1 hne
  obtain ⟨hclient, htopic⟩ := h.clientId_of_routerOf hget
  have hvalid := h.valid _ _ hget
  rw [hclient, htopic] at hvalid
  rw [hvalid.1, Bool.not_true, Bool.false_or, Bool.not_eq_true'] at hv
  simp only [validateTopic, Bool.not_eq_false', List.isEmpty_iff] at hv
  exact hvalid.2 hv

lemma Consistent.routerOf_delete (h : s.Consistent) (clientId topic clientId' topic' : Str) :
    (s.delete clientId topic).routerOf clientId' topic' =
      if clientId' = clientId ∧ topic' = topic then none else s.routerOf clientId' topic' := by
  have hkey : (⟨clientId', topic'⟩ : MqttRouterKey) = ⟨clientId, topic⟩ ↔
      clientId' = clientId ∧ topic' = topic := by simp
  by_cases heq : clientId' = clientId ∧ topic' = topic
  · -- the router is gone, also when there was none to delete
    rw [if_pos heq, heq.1, heq.2]
    simp only [RouterCache.delete]
    split_ifs with hv hc
    · exact h.routerOf_of_not_valid hv
    · exact PlainMap.get_remove_self _ _
    · simpa [routerOf] using hc
  · rw [if_neg heq]
    simp only [RouterCache.delete]
    split_ifs
    · rfl
    · exact PlainMap.get_remove_of_ne _ fun hk => heq (hkey.1 hk)
    · rfl

lemma mem_topicsOf (h : s.Consistent) {clientId topic : Str} {router : MqttRouter}
    (hget : s.routerOf clientId topic = some router) : topic ∈ s.topicsOf clientId := by
  obtain ⟨hclient, htopic⟩ := h.clientId_of_routerOf hget
  refine mem_map.2 ⟨router, mem_filter.2 ⟨?_, by simp [hclient]⟩, htopic⟩
  exact (PlainMap.mem_values_iff _ _).2 ⟨_, hget⟩

/-- `delete(clientId)` takes every router of the client, and no other one. -/
lemma Consistent.routerOf_deleteClient (h : s.Consistent) {clientId : Str}
    (hv : IdUtil.validateClientId clientId = true) (clientId' topic' : Str) :
    (s.deleteClient clientId).routerOf clientId' topic' =
      if clientId' = clientId then none else s.routerOf clientId' topic' := by
  have hloop : ∀ (topics : List Str) (s : RouterCache), s.Consistent →
      (topics.foldl (fun s topic => s.delete clientId topic) s).routerOf clientId' topic' =
        if clientId' = clientId ∧ topic' ∈ topics then none else s.routerOf clientId' topic' := by
    intro topics
    induction topics with
    | nil => simp
    | cons topic topics ih =>
        intro s hs
        rw [foldl_cons, ih _ (hs.delete clientId topic), hs.routerOf_delete]
        by_cases hclient : clientId' = clientId <;> by_cases htopic : topic' = topic <;>
          simp [hclient, htopic]
  simp only [RouterCache.deleteClient]
  rw [if_neg (by simp [hv]), hloop _ s h]
  by_cases hclient : clientId' = clientId
  · subst hclient
    rw [if_pos rfl]
    by_cases hmem : topic' ∈ s.topicsOf clientId'
    · rw [if_pos ⟨rfl, hmem⟩]
    · rw [if_neg fun hand => hmem hand.2]
      by_contra hne
      obtain ⟨router, hget⟩ := Option.ne_none_iff_exists'.1 hne
      exact hmem (mem_topicsOf h hget)
  · rw [if_neg fun hand => hclient hand.1, if_neg hclient]

lemma Consistent.routerOf_update (h : s.Consistent) (clientId : Str) (nodeId : UUID)
    (clientId' topic' : Str) :
    (s.update clientId nodeId).routerOf clientId' topic' =
      if clientId' = clientId then
        (s.routerOf clientId' topic').map fun router => { router with nodeId := nodeId }
      else s.routerOf clientId' topic' := by
  simp only [RouterCache.update, routerOf]
  rw [PlainMap.get_mapValues]
  cases hget : s.routerCache.get ⟨clientId', topic'⟩ with
  | none => simp
  | some router =>
      have hclient : router.clientId = clientId ↔ clientId' = clientId := by
        rw [(h.clientId_of_routerOf hget).1]
      rw [Option.map_some, if_congr hclient rfl rfl]
      by_cases heq : clientId' = clientId
      · rw [if_pos heq, if_pos heq]
        rfl
      · rw [if_neg heq, if_neg heq]

lemma Consistent.routerOf_save (h : s.Consistent) (router : MqttRouter)
    (hv : IdUtil.validateClientId router.clientId = true) (ht : validateTopic router.topic = true)
    (clientId' topic' : Str) :
    (s.save router).routerOf clientId' topic' =
      if clientId' = router.clientId ∧ topic' = router.topic then some router
      else s.routerOf clientId' topic' := by
  have hput : ∀ m : PlainMap MqttTrieKey MqttTrie,
      routerOf ⟨s.routerCache.put router.key router, m⟩ clientId' topic' =
        if clientId' = router.clientId ∧ topic' = router.topic then some router
        else s.routerOf clientId' topic' := by
    intro m
    simp only [routerOf]
    rw [PlainMap.get_put]
    exact if_congr ⟨MqttRouterKey.mk.inj, fun heq => by rw [heq.1, heq.2]; rfl⟩ rfl rfl
  simp only [RouterCache.save]
  rw [if_neg (by simp [hv, ht])]
  cases hget : s.routerCache.get router.key with
  | none => exact hput _
  | some old =>
      obtain ⟨hclient, htopic⟩ := MqttRouterKey.mk.inj (h.keyed _ _ hget)
      have hrouter : { old with nodeId := router.nodeId, qos := router.qos } = router := by
        rw [hclient, htopic]
      dsimp only
      rw [hrouter]
      exact hput _

/-- A save that is not accepted changes nothing. -/
lemma save_of_not_valid {router : MqttRouter}
    (hv : (!IdUtil.validateClientId router.clientId || !validateTopic router.topic) = true) :
    s.save router = s := if_pos hv

theorem Consistent.update (h : s.Consistent) (clientId : Str) (nodeId : UUID) :
    (s.update clientId nodeId).Consistent := by
  have hold : ∀ key router, (s.update clientId nodeId).routerCache.get key = some router →
      ∃ old, s.routerCache.get key = some old ∧ router.key = old.key := by
    intro key router hget
    simp only [RouterCache.update] at hget
    rw [PlainMap.get_mapValues, Option.map_eq_some_iff] at hget
    obtain ⟨old, hold, rfl⟩ := hget
    refine ⟨old, hold, ?_⟩
    split_ifs <;> rfl
  refine ⟨fun key router hget => ?_, fun key router hget => ?_, h.counts.congr fun key => ?_⟩
  · obtain ⟨old, hget', hkey⟩ := hold key router hget
    rw [hkey]
    exact h.keyed key old hget'
  · obtain ⟨old, hget', hkey⟩ := hold key router hget
    obtain ⟨hclient, htopic⟩ := MqttRouterKey.mk.inj hkey
    rw [hclient, htopic]
    exact h.valid key old hget'
  · simp only [refs, RouterCache.update]
    rw [PlainMap.count_mapValues]
    congr 1
    funext k router
    split_ifs <;> rfl

/-! ### How many routers a client has -/

/-- How many routers of a client are stored. -/
def countOf (s : RouterCache) (clientId : Str) : ℕ :=
  s.routerCache.count fun key _ => decide (key.clientId = clientId)

lemma countOf_congr {s' : RouterCache} {clientId : Str}
    (h : ∀ topic, s'.routerOf clientId topic = none ↔ s.routerOf clientId topic = none) :
    s'.countOf clientId = s.countOf clientId := by
  refine PlainMap.count_key_congr fun key hkey => ?_
  obtain rfl := of_decide_eq_true hkey
  exact h key.topic

/-- A client has one router more if a topic is new for it. -/
lemma countOf_of_new {s s' : RouterCache} {clientId topic : Str}
    (hold : s.routerOf clientId topic = none) (hnew : s'.routerOf clientId topic ≠ none)
    (h : ∀ topic', topic' ≠ topic →
      (s'.routerOf clientId topic' = none ↔ s.routerOf clientId topic' = none)) :
    s'.countOf clientId = s.countOf clientId + 1 := by
  refine PlainMap.count_key_of_new (by simp) hold hnew fun key hne hkey => ?_
  obtain rfl := of_decide_eq_true hkey
  exact h key.topic fun htopic => hne (by rw [← htopic])

lemma countOf_eq_zero {clientId : Str} (h : ∀ topic, s.routerOf clientId topic = none) :
    s.countOf clientId = 0 := by
  by_contra hne
  obtain ⟨key, router, hget, hkey⟩ := (PlainMap.count_pos_iff _ _).1 (Nat.pos_of_ne_zero hne)
  obtain rfl := of_decide_eq_true hkey
  have hnone := h key.topic
  rw [routerOf, hget] at hnone
  cases hnone

lemma Consistent.countOf_save (h : s.Consistent) (router : MqttRouter)
    (hv : IdUtil.validateClientId router.clientId = true) (ht : validateTopic router.topic = true)
    (clientId : Str) :
    (s.save router).countOf clientId = s.countOf clientId +
      if clientId = router.clientId ∧ s.routerOf router.clientId router.topic = none then 1
      else 0 := by
  have hget := fun topic => h.routerOf_save router hv ht clientId topic
  by_cases hnew : clientId = router.clientId ∧ s.routerOf router.clientId router.topic = none
  · obtain ⟨rfl, hnone⟩ := hnew
    rw [if_pos ⟨rfl, hnone⟩]
    refine countOf_of_new hnone (by rw [hget, if_pos ⟨rfl, rfl⟩]; simp) fun topic hne => ?_
    rw [hget, if_neg fun heq => hne heq.2]
  · rw [if_neg hnew, Nat.add_zero]
    refine countOf_congr fun topic => ?_
    rw [hget]
    split_ifs with heq
    · obtain ⟨rfl, rfl⟩ := heq
      exact iff_of_false (by simp) fun hnone => hnew ⟨rfl, hnone⟩
    · exact Iff.rfl

lemma Consistent.countOf_delete (h : s.Consistent) (clientId topic clientId' : Str) :
    (s.delete clientId topic).countOf clientId' +
      (if clientId' = clientId ∧ s.routerOf clientId topic ≠ none then 1 else 0) =
      s.countOf clientId' := by
  have hget := fun topic' => h.routerOf_delete clientId topic clientId' topic'
  by_cases hold : clientId' = clientId ∧ s.routerOf clientId topic ≠ none
  · obtain ⟨rfl, hsome⟩ := hold
    rw [if_pos ⟨rfl, hsome⟩]
    refine (countOf_of_new (by rw [hget, if_pos ⟨rfl, rfl⟩]) hsome
      fun topic' hne => ?_).symm
    rw [hget, if_neg fun heq => hne heq.2]
  · rw [if_neg hold, Nat.add_zero]
    refine countOf_congr fun topic' => ?_
    rw [hget]
    split_ifs with heq
    · obtain ⟨rfl, rfl⟩ := heq
      exact iff_of_true rfl (not_not.1 fun hsome => hold ⟨rfl, hsome⟩)
    · exact Iff.rfl

/-- The routers of other clients are not deleted. -/
lemma Consistent.countOf_deletes_of_ne (h : s.Consistent) {clientId clientId' : Str}
    (hne : clientId' ≠ clientId) (topics : List Str) :
    (topics.foldl (fun s topic => s.delete clientId topic) s).countOf clientId' =
      s.countOf clientId' := by
  induction topics generalizing s with
  | nil => rfl
  | cons topic topics ih =>
      rw [foldl_cons, ih (h.delete clientId topic), ← h.countOf_delete clientId topic clientId',
        if_neg fun hand => hne hand.1, Nat.add_zero]

/-- Deletions take at most one router each, and one each iff they name distinct stored topics. -/
lemma Consistent.countOf_deletes (h : s.Consistent) (clientId : Str) (topics : List Str) :
    s.countOf clientId ≤
      (topics.foldl (fun s topic => s.delete clientId topic) s).countOf clientId + topics.length ∧
    ((topics.foldl (fun s topic => s.delete clientId topic) s).countOf clientId + topics.length =
        s.countOf clientId ↔
      topics.Nodup ∧ ∀ topic ∈ topics, s.routerOf clientId topic ≠ none) := by
  induction topics generalizing s with
  | nil => exact ⟨le_refl _, by simp⟩
  | cons topic topics ih =>
      obtain ⟨hle, hiff⟩ := ih (h.delete clientId topic)
      have hcount := h.countOf_delete clientId topic clientId
      rw [foldl_cons, length_cons]
      by_cases hstored : s.routerOf clientId topic = none
      · rw [if_neg fun hand => hand.2 hstored] at hcount
        refine ⟨by omega, iff_of_false (by omega) fun hall => ?_⟩
        exact hall.2 topic mem_cons_self hstored
      · rw [if_pos ⟨rfl, hstored⟩] at hcount
        refine ⟨by omega, ?_⟩
        have hsucc : (topics.foldl (fun s topic => s.delete clientId topic)
            (s.delete clientId topic)).countOf clientId + (topics.length + 1) =
            s.countOf clientId ↔ (topics.foldl (fun s topic => s.delete clientId topic)
            (s.delete clientId topic)).countOf clientId + topics.length =
            (s.delete clientId topic).countOf clientId := by omega
        -- what is left to delete must be stored still
        have hleft : ∀ topic' ∈ topics, (s.delete clientId topic).routerOf clientId topic' ≠ none ↔
            topic' ≠ topic ∧ s.routerOf clientId topic' ≠ none := by
          intro topic' _
          rw [h.routerOf_delete]
          split_ifs with heq
          · simp [heq.2]
          · simp [show topic' ≠ topic from fun hsame => heq ⟨rfl, hsame⟩]
        rw [hsucc, hiff, nodup_cons]
        constructor
        · rintro ⟨hnodup, hall⟩
          refine ⟨⟨fun hmem => ((hleft topic hmem).1 (hall topic hmem)).1 rfl, hnodup⟩,
            fun topic' hmem => ?_⟩
          rcases mem_cons.1 hmem with rfl | hmem
          · exact hstored
          · exact ((hleft topic' hmem).1 (hall topic' hmem)).2
        · rintro ⟨⟨hnot, hnodup⟩, hall⟩
          refine ⟨hnodup, fun topic' hmem => (hleft topic' hmem).2 ⟨?_, ?_⟩⟩
          · rintro rfl
            exact hnot hmem
          · exact hall topic' (mem_cons_of_mem _ hmem)

end RouterCache

end Stuart
