import Raftoral.Lib.Selection
import Raftoral.Management.ConcurrentConsolidation

/-!
# What the planner chooses from

The planner sorts the entries of a hash map by size and takes the first one. The sort is stable, so
that the order of the map decides among entries of one size: every smallest sub-cluster is the
first one in some order.
-/

namespace Raftoral

open ManagementStateMachine ClusterManager Selection

instance : Std.Total fun a b : ℕ × SubClusterMetadata =>
    a.2.nodeIds.length ≤ b.2.nodeIds.length :=
  ⟨fun _ _ => Nat.le_total _ _⟩

instance : IsTrans (ℕ × SubClusterMetadata) fun a b =>
    a.2.nodeIds.length ≤ b.2.nodeIds.length :=
  ⟨fun _ _ _ => Nat.le_trans⟩

instance : Std.Total fun a b : ℕ × SubClusterMetadata =>
    b.2.nodeIds.length ≤ a.2.nodeIds.length :=
  ⟨fun _ _ => Nat.le_total _ _⟩

instance : IsTrans (ℕ × SubClusterMetadata) fun a b =>
    b.2.nodeIds.length ≤ a.2.nodeIds.length :=
  ⟨fun _ _ _ hab hbc => Nat.le_trans hbc hab⟩

namespace ManagementStateMachine

variable {sm : ManagementStateMachine} {order : List ℕ}

/-! ## Orders of the map -/

theorem entries_map_fst {l : List (ℕ × SubClusterMetadata)}
    (h : ∀ entry ∈ l, sm.getSubCluster entry.1 = some entry.2) :
    sm.entries (l.map Prod.fst) = l := by
  induction l with
  | nil => rfl
  | cons entry l ih =>
    have hrest := ih fun x hx => h x (List.mem_cons_of_mem entry hx)
    rw [List.map_cons, entries, List.filterMap_cons_some (by
      rw [h entry List.mem_cons_self]; rfl), ← entries, hrest]

theorem perm_map_fst {l : List (ℕ × SubClusterMetadata)} (horder : sm.IterationOrder order)
    (hperm : l.Perm (sm.entries order)) : (l.map Prod.fst).Perm sm.listSubClusters := by
  have hnodup : (l.map Prod.fst).Nodup := by
    rw [(hperm.map Prod.fst).nodup_iff, List.Nodup, List.pairwise_map]
    exact nodup_entries horder
  refine (List.perm_ext_iff_of_nodup hnodup Std.ExtTreeMap.nodup_keys).mpr fun c => ?_
  show c ∈ l.map Prod.fst ↔ c ∈ sm.listSubClusters
  rw [mem_listSubClusters, List.mem_map, Option.isSome_iff_exists]
  constructor
  · rintro ⟨entry, hentry, rfl⟩
    exact ⟨entry.2, (mem_entries horder).mp (hperm.mem_iff.mp hentry)⟩
  · rintro ⟨metadata, hmeta⟩
    exact ⟨(c, metadata), hperm.mem_iff.mpr ((mem_entries horder).mpr hmeta), rfl⟩

theorem length_entries (horder : sm.IterationOrder order) :
    (sm.entries order).length = sm.listSubClusters.length := by
  rw [← (perm_map_fst horder (List.Perm.refl _)).length_eq, List.length_map]

/-- The map may be iterated in every order of its entries. -/
theorem exists_order_of_perm {l : List (ℕ × SubClusterMetadata)}
    (horder : sm.IterationOrder order) (hperm : l.Perm (sm.entries order)) :
    ∃ order', sm.IterationOrder order' ∧ sm.entries order' = l := by
  refine ⟨l.map Prod.fst, perm_map_fst horder hperm, entries_map_fst fun entry hentry => ?_⟩
  exact (mem_entries horder).mp (hperm.mem_iff.mp hentry)

/-- Every sub-cluster comes first in some order. -/
theorem exists_order_cons {c : ℕ} {metadata : SubClusterMetadata}
    (hmeta : sm.getSubCluster c = some metadata) :
    ∃ order rest, sm.IterationOrder order ∧ sm.entries order = (c, metadata) :: rest := by
  have hlist := iterationOrder_listSubClusters sm
  have hmem : (c, metadata) ∈ sm.entries sm.listSubClusters := (mem_entries hlist).mpr hmeta
  obtain ⟨rest, hperm⟩ := exists_perm_cons hmem
  obtain ⟨order, horder, heq⟩ := exists_order_of_perm hlist hperm
  exact ⟨order, rest, horder, heq⟩

/-- A decision is the same for all orders of the map. -/
theorem orderFree_entries {β : Type*} (sm : ManagementStateMachine)
    (f : List (ℕ × SubClusterMetadata) → β) :
    OrderFree f (sm.entries sm.listSubClusters) ↔
      ∀ order order', sm.IterationOrder order → sm.IterationOrder order' →
        f (sm.entries order) = f (sm.entries order') := by
  have hlist := iterationOrder_listSubClusters sm
  constructor
  · intro h order order' horder horder'
    exact h _ _ (perm_entries horder hlist) (perm_entries horder' hlist)
  · intro h l₁ l₂ hl₁ hl₂
    obtain ⟨order, horder, rfl⟩ := exists_order_of_perm hlist hl₁
    obtain ⟨order', horder', rfl⟩ := exists_order_of_perm hlist hl₂
    exact h order order' horder horder'

/-! ## The smallest sub-clusters -/

/-- The sub-cluster is not draining, and none that is not draining is smaller. -/
def Smallest (sm : ManagementStateMachine) (c : ℕ) (metadata : SubClusterMetadata) : Prop :=
  sm.getSubCluster c = some metadata ∧ metadata.isDraining = false ∧
    ∀ c' metadata', sm.getSubCluster c' = some metadata' → metadata'.isDraining = false →
      metadata.nodeIds.length ≤ metadata'.nodeIds.length

theorem mem_nonDraining (horder : sm.IterationOrder order) {entry : ℕ × SubClusterMetadata} :
    entry ∈ nonDraining (sm.entries order) ↔
      sm.getSubCluster entry.1 = some entry.2 ∧ entry.2.isDraining = false := by
  rw [nonDraining, List.mem_filter, mem_entries horder, Bool.not_eq_true']

theorem least_nonDraining_iff (horder : sm.IterationOrder order) {c : ℕ}
    {metadata : SubClusterMetadata} :
    Least (fun a b => a.2.nodeIds.length ≤ b.2.nodeIds.length) (nonDraining (sm.entries order))
      (c, metadata) ↔ Smallest sm c metadata := by
  rw [Least, Smallest, mem_nonDraining horder, and_assoc]
  refine and_congr_right fun _ => and_congr_right fun _ => ?_
  simp only [mem_nonDraining horder, Prod.forall, and_imp]

/-- The one that comes first in the sort. -/
theorem smallest_of_head? (horder : sm.IterationOrder order) {c : ℕ} {metadata : SubClusterMetadata}
    (h : (sortBySize (nonDraining (sm.entries order))).head? = some (c, metadata)) :
    Smallest sm c metadata :=
  (least_nonDraining_iff horder).mp (least_of_head?_insertionSort h)

/-- Each of them comes first in some order. -/
theorem Smallest.exists_order {c : ℕ} {metadata : SubClusterMetadata}
    (h : Smallest sm c metadata) :
    ∃ order, sm.IterationOrder order ∧
      (sortBySize (nonDraining (sm.entries order))).head? = some (c, metadata) := by
  have hlist := iterationOrder_listSubClusters sm
  obtain ⟨l, hperm, hhead⟩ :=
    ((least_nonDraining_iff hlist).mpr h).exists_perm_head?
      (fun entry : ℕ × SubClusterMetadata => !entry.2.isDraining)
  obtain ⟨order, horder, rfl⟩ := exists_order_of_perm hlist hperm
  exact ⟨order, horder, hhead⟩

theorem exists_smallest {c : ℕ} (h : sm.isActive c) : ∃ c metadata, Smallest sm c metadata := by
  obtain ⟨metadata, hmeta, hactive⟩ := (Option.any_eq_true _ _).mp h
  have hmem : (c, metadata) ∈ nonDraining (sm.entries sm.listSubClusters) :=
    (mem_nonDraining (iterationOrder_listSubClusters sm)).mpr ⟨hmeta, by simpa using hactive⟩
  cases hhead : (sortBySize (nonDraining (sm.entries sm.listSubClusters))).head? with
  | none =>
    rw [head?_insertionSort_eq_none.mp hhead] at hmem
    exact absurd hmem List.not_mem_nil
  | some entry =>
    exact ⟨entry.1, entry.2, smallest_of_head? (iterationOrder_listSubClusters sm) hhead⟩

end ManagementStateMachine

end Raftoral
