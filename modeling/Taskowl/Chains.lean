import Taskowl.Queries

/-!
# The nodes of a retry chain

A chain has one node for each task with a row in the family, in the order of
their first rows, and the node shows the task's latest row in the family.
-/

namespace Taskowl

open Lib Py

section Chains

variable {rows : List (Row TaskEvent)} {id : Uuid}

theorem getTaskChain_str (env : Env) (id : Uuid) :
    getTaskChain env id.str = .ok (getTaskChainImpl env.taskRows id) := by
  unfold getTaskChain
  rw [Uuid.parse_str]

/-- The family of the chain of a task. -/
def chainFamily (rows : List (Row TaskEvent)) (id : Uuid) : List (Row TaskEvent) :=
  family rows (resolveRoot rows id) id

theorem mem_chainFamily {r : Row TaskEvent} : r ∈ chainFamily rows id ↔
    r ∈ rows ∧ (r.val.rootId = some (resolveRoot rows id) ∨ r.val.taskId = id) := by
  simp [chainFamily, family]

theorem nodup_ids_family (hids : (rows.map (·.id)).Nodup) (id : Uuid) :
    ((chainFamily rows id).map (·.id)).Nodup := (List.filter_sublist.map _).nodup hids

/-- The row `chain_map` holds for a task: its latest of the family. -/
theorem lookup_chainMap (hids : (rows.map (·.id)).Nodup) {r : Row TaskEvent}
    (hr : r ∈ latestRows (·.taskId) (·.timestamp) (chainFamily rows id)) {task : Uuid}
    (ht : r.val.taskId = task) :
    ((latestRows (·.taskId) (·.timestamp) (chainFamily rows id)).map fun r =>
      (r.val.taskId, chainNode r)).lookup task = some (chainNode r) := by
  have hnodup : (((latestRows (·.taskId) (·.timestamp) (chainFamily rows id)).map fun r =>
      (r.val.taskId, chainNode r)).map (·.1)).Nodup := by
    rw [List.map_map]
    refine List.Nodup.map_on (fun s hs u hu h => ?_) ?_
    · exact latestRows_unique (nodup_ids_family hids id) hs hu h
    · exact ((nodup_ids_family hids id).of_map _).filter _
  rw [lookup_eq_some_iff hnodup]
  exact List.mem_map.mpr ⟨r, hr, by rw [ht]⟩

def chainTasks (rows : List (Row TaskEvent)) (id : Uuid) : List Uuid :=
  (orderBy (·.val.timestamp)
    (firstRows (·.taskId) (·.timestamp) (chainFamily rows id))).map (·.val.taskId)

theorem mem_chainTasks {task : Uuid} :
    task ∈ chainTasks rows id ↔ ∃ r ∈ chainFamily rows id, r.val.taskId = task := by
  unfold chainTasks
  rw [List.mem_map]
  constructor
  · rintro ⟨r, hr, ht⟩
    exact ⟨r, List.mem_of_mem_filter (mem_orderBy.mp hr), ht⟩
  · rintro ⟨r, hr, ht⟩
    obtain ⟨s, hs, hp⟩ := exists_firstRow (·.taskId) (·.timestamp) hr
    exact ⟨s, mem_orderBy.mpr hs, hp.trans ht⟩

theorem nodup_chainTasks (hids : (rows.map (·.id)).Nodup) (id : Uuid) :
    (chainTasks rows id).Nodup := by
  refine List.Nodup.map_on (fun r hr s hs h => ?_) ?_
  · exact firstRows_unique (nodup_ids_family hids id) (mem_orderBy.mp hr) (mem_orderBy.mp hs) h
  · exact (orderBy_perm _ _).nodup_iff.mpr (((nodup_ids_family hids id).of_map _).filter _)

theorem chain_eq_map (hids : (rows.map (·.id)).Nodup) (id : Uuid) :
    ∃ node : Row TaskEvent → ChainNode,
      (getTaskChainImpl rows id).chain =
        (orderBy (·.val.timestamp)
          (firstRows (·.taskId) (·.timestamp) (chainFamily rows id))).map node ∧
      ∀ f ∈ firstRows (·.taskId) (·.timestamp) (chainFamily rows id),
        ∃ r ∈ latestRows (·.taskId) (·.timestamp) (chainFamily rows id),
          r.val.taskId = f.val.taskId ∧ node f = chainNode r := by
  let chainMap := (latestRows (·.taskId) (·.timestamp) (chainFamily rows id)).map fun r =>
    (r.val.taskId, chainNode r)
  have hlookup : ∀ f ∈ firstRows (·.taskId) (·.timestamp) (chainFamily rows id),
      ∃ r ∈ latestRows (·.taskId) (·.timestamp) (chainFamily rows id),
        r.val.taskId = f.val.taskId ∧ chainMap.lookup f.val.taskId = some (chainNode r) := by
    intro f hf
    obtain ⟨r, hr, ht⟩ := exists_latestRow (·.taskId) (·.timestamp) (List.mem_of_mem_filter hf)
    exact ⟨r, hr, ht, lookup_chainMap hids hr ht⟩
  refine ⟨fun f => (chainMap.lookup f.val.taskId).getD (chainNode f), ?_, fun f hf => ?_⟩
  · show List.filterMap (fun f : Row TaskEvent => chainMap.lookup f.val.taskId) _ = _
    rw [← List.filterMap_eq_map]
    apply List.filterMap_congr
    intro f hf
    obtain ⟨r, -, -, hr⟩ := hlookup f (mem_orderBy.mp hf)
    show chainMap.lookup f.val.taskId = some ((chainMap.lookup f.val.taskId).getD _)
    rw [hr, Option.getD_some]
  · obtain ⟨r, hr, ht, hl⟩ := hlookup f hf
    refine ⟨r, hr, ht, ?_⟩
    show (chainMap.lookup f.val.taskId).getD _ = _
    rw [hl, Option.getD_some]

theorem map_taskId_chain (hids : (rows.map (·.id)).Nodup) (id : Uuid) :
    (getTaskChainImpl rows id).chain.map (·.taskId) = (chainTasks rows id).map (·.str) := by
  obtain ⟨node, hchain, hnode⟩ := chain_eq_map hids id
  rw [hchain, chainTasks, List.map_map, List.map_map]
  apply List.map_congr_left
  intro f hf
  obtain ⟨r, -, ht, hr⟩ := hnode f (mem_orderBy.mp hf)
  show (node f).taskId = f.val.taskId.str
  rw [hr, ← ht]
  rfl

/-- The nodes are the latest rows of the family. -/
theorem mem_chain (hids : (rows.map (·.id)).Nodup) {node : ChainNode} :
    node ∈ (getTaskChainImpl rows id).chain ↔
      ∃ r ∈ latestRows (·.taskId) (·.timestamp) (chainFamily rows id), node = chainNode r := by
  obtain ⟨nodeOf, hchain, hnode⟩ := chain_eq_map hids id
  rw [hchain, List.mem_map]
  constructor
  · rintro ⟨f, hf, rfl⟩
    obtain ⟨r, hr, -, heq⟩ := hnode f (mem_orderBy.mp hf)
    exact ⟨r, hr, heq⟩
  · rintro ⟨r, hr, rfl⟩
    obtain ⟨f, hf, hft⟩ := exists_firstRow (·.taskId) (·.timestamp) (List.mem_of_mem_filter hr)
    obtain ⟨s, hs, hst, heq⟩ := hnode f hf
    have hsr := latestRows_unique (nodup_ids_family hids id) hs hr (hst.trans hft)
    exact ⟨f, mem_orderBy.mpr hf, by rw [heq, hsr]⟩

end Chains

end Taskowl
