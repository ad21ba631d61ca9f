/-
The nodes in the routers of a cluster.

A router carries the node of its client, and `getClusteredRoutes` hands it to the routing.  The
statement behind `update` selects the routers of a client and sets their node one after the other;
what is saved in between is not selected.
-/
import Stuart.Caches.RouterClient

namespace Stuart

open List Lib TopicUtil

namespace RouterCache

/-- The rows of `getClusteredRoutes`. -/
def clusteredRoute (upgradeQos : Bool) (qos : ℤ) (router : MqttRouter) : MqttRoute where
  nodeId := some router.nodeId
  clientId := router.clientId
  qos := routeQos upgradeQos qos router.qos

def getClusteredRoutes (s : RouterCache) (upgradeQos : Bool) (topic : Str) (qos : ℤ) :
    List MqttRoute :=
  match s.getMatches topic with
  | none => []
  | some found =>
      if found = ∅ then []
      else (s.routerCache.values.filter fun router => router.topic ∈ found).map
        (clusteredRoute upgradeQos qos)

/-- `update MqttRouter set nodeId = ? where clientId = ?`, for one of the selected rows. -/
def updateRow (s : RouterCache) (clientId : Str) (nodeId : UUID) (topic : Str) : RouterCache :=
  match s.routerOf clientId topic with
  | none => s
  | some router =>
      { s with routerCache := s.routerCache.put ⟨clientId, topic⟩ { router with nodeId } }

variable {s : RouterCache}

lemma Consistent.updateRow (h : s.Consistent) (clientId : Str) (nodeId : UUID) (topic : Str) :
    (s.updateRow clientId nodeId topic).Consistent := by
  simp only [RouterCache.updateRow]
  cases hget : s.routerOf clientId topic with
  | none => exact h
  | some router =>
      obtain ⟨rfl, rfl⟩ := h.clientId_of_routerOf hget
      have hold : s.routerCache.get (MqttRouter.key { router with nodeId }) = some router := hget
      exact h.put_old hold

lemma routerOf_updateRow (clientId : Str) (nodeId : UUID) (topic clientId' topic' : Str) :
    (s.updateRow clientId nodeId topic).routerOf clientId' topic' =
      if clientId' = clientId ∧ topic' = topic then
        (s.routerOf clientId' topic').map fun router => { router with nodeId }
      else s.routerOf clientId' topic' := by
  have hkey : (⟨clientId', topic'⟩ : MqttRouterKey) = ⟨clientId, topic⟩ ↔
      clientId' = clientId ∧ topic' = topic := by simp
  simp only [RouterCache.updateRow]
  cases hget : s.routerOf clientId topic with
  | none =>
      split_ifs with heq
      · rw [heq.1, heq.2, hget]
        rfl
      · rfl
  | some router =>
      simp only [routerOf, PlainMap.get_put, hkey]
      split_ifs with heq
      · rw [heq.1, heq.2]
        rw [show s.routerCache.get ⟨clientId, topic⟩ = some router from hget]
        rfl
      · rfl

/-- The rows one after the other, with nothing in between: `update`. -/
theorem Consistent.routerOf_updateRows (h : s.Consistent) (clientId : Str) (nodeId : UUID)
    (clientId' topic' : Str) :
    ((s.topicsOf clientId).foldl (fun s topic => s.updateRow clientId nodeId topic) s).routerOf
      clientId' topic' = (s.update clientId nodeId).routerOf clientId' topic' := by
  have hloop : ∀ (topics : List Str) (s : RouterCache), s.Consistent →
      (topics.foldl (fun s topic => s.updateRow clientId nodeId topic) s).routerOf
          clientId' topic' =
        if clientId' = clientId ∧ topic' ∈ topics then
          (s.routerOf clientId' topic').map fun router => { router with nodeId }
        else s.routerOf clientId' topic' := by
    intro topics
    induction topics with
    | nil => simp
    | cons topic topics ih =>
        intro s hs
        rw [foldl_cons, ih _ (hs.updateRow clientId nodeId topic), routerOf_updateRow]
        by_cases hclient : clientId' = clientId
        · by_cases htopic : topic' = topic
          · simp [hclient, htopic, Function.comp_def]
          · simp [hclient, htopic]
        · simp [hclient]
  rw [hloop _ s h, h.routerOf_update]
  by_cases hclient : clientId' = clientId
  · subst hclient
    simp only [true_and, if_true]
    split_ifs with hmem
    · rfl
    · cases hget : s.routerOf clientId' topic' with
      | none => rfl
      | some router => exact absurd (mem_topicsOf h hget) hmem
  · simp only [hclient, false_and, if_false]

/-- A clustered route comes from a stored router of its client. -/
lemma Consistent.exists_of_mem_getClusteredRoutes (h : s.Consistent) {upgradeQos : Bool}
    {topic : Str} {qos : ℤ} {route : MqttRoute}
    (hmem : route ∈ s.getClusteredRoutes upgradeQos topic qos) :
    ∃ filter router, s.routerOf route.clientId filter = some router ∧
      route.nodeId = some router.nodeId := by
  simp only [getClusteredRoutes] at hmem
  cases hfound : s.getMatches topic with
  | none =>
      rw [hfound] at hmem
      exact absurd hmem not_mem_nil
  | some found =>
      rw [hfound] at hmem
      dsimp only at hmem
      split_ifs at hmem
      · exact absurd hmem not_mem_nil
      · obtain ⟨router, hrouter, rfl⟩ := mem_map.1 hmem
        obtain ⟨key, hget⟩ := (PlainMap.mem_values_iff _ _).1 (mem_of_mem_filter hrouter)
        have hkey := h.keyed key router hget
        refine ⟨router.topic, router, ?_, rfl⟩
        subst hkey
        exact hget

end RouterCache

end Stuart
