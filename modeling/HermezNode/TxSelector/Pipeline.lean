import HermezNode.TxSelector.Sort

/-!
# From the pool to the list the selector works on

Before its selection loop, `getL1L2TxSelection` drops the txs of the atomic groups that failed
earlier in the same call (`filterFailedAtomicGroups`), then the invalid groups
(`filterInvalidAtomicGroups`), scores the groups that remain
(`calculateAtomicGroupsAverageFee`) and sorts (`sortL2Txs`).  `prepareSelection` is that
sequence; `PrepRuntime` holds the choices the Go runtime makes along it.

* `prepareSelection_spec` : **the preparation loses nothing and keeps groups whole**
  (`PreparedFrom`): the list to select from and the discarded txs are the pool, up to the
  annotations; every group of the pool is kept whole or discarded whole, and discarded by the
  first filter exactly when it has failed; every group kept is a block of consecutive txs, in
  pool order, whose requests all land inside the block on a tx with the requested fields;
* `isAtomicGroupValid_of_mem_prepareSelection` : the list to select from holds no tx of an invalid
  group;
* `mem_prepareSelection_snd` : every discarded tx is an atomic tx of the pool carrying the
  annotation of its failed or invalid group;
* `prepareSelection_runtime` : **the runtime shows only on ties**: without two non-atomic txs of
  the same (`AbsoluteFee`, `FromIdx`, `Nonce`) or two groups of the same `float64` mean fee,
  every runtime prepares the same list, and discards the same txs up to their order;
* `prepareSelection_insert_failed` : **a restart drops the failed group and nothing else**: under
  the same condition, the list prepared once one more group has failed is the list prepared
  before without that group's txs, in the same order.
-/

namespace HermezNode

namespace TxSelector

open Api

/-- The choices the Go runtime makes while the selector prepares its list: the visiting orders
of the map loops of `filterInvalidAtomicGroups`, `calculateAtomicGroupsAverageFee` and
`sortL2Txs`, and the outcome of `sort.Slice`. -/
structure PrepRuntime where
  invalidOrder : RangeOrder ((_ : AtomicGroupID) × List PoolL2Tx)
  averageOrder : RangeOrder AtomicGroupID
  sortOrder : RangeOrder AtomicGroupID
  sliceSort : SliceSort PoolL2Tx

/-- The part of `getL1L2TxSelection` from the pending txs to the sorted list: the txs to select
from, and the txs discarded by the two filters. -/
def prepareSelection (k : SelectorConsts) (rt : PrepRuntime) (l2TxsFromDB : List PoolL2Tx)
    (failedAtomicGroups : GoMap AtomicGroupID FailedAtomicGroup) :
    List PoolL2Tx × List PoolL2Tx :=
  let filtered := filterFailedAtomicGroups k l2TxsFromDB failedAtomicGroups
  let selectable := filterInvalidAtomicGroups k rt.invalidOrder filtered.1
  let atomicFeeMap := calculateAtomicGroupsAverageFee k.float64 rt.averageOrder selectable.1
  (sortL2Txs rt.sortOrder rt.sliceSort selectable.1 atomicFeeMap, filtered.2 ++ selectable.2)

/-- What the preparation promises, of the pool `L` and the failed groups `F`: the list `S` to
select from, and the txs the first filter (`D1`) and the second (`D2`) discard. -/
structure PreparedFrom (L : List PoolL2Tx) (F : GoMap AtomicGroupID FailedAtomicGroup)
    (S D1 D2 : List PoolL2Tx) : Prop where
  /-- No tx is lost or duplicated, up to the annotations. -/
  perm : ((S ++ D1 ++ D2).map PoolL2Tx.erase).Perm (L.map PoolL2Tx.erase)
  /-- A group of the pool is kept whole or discarded whole. -/
  whole : ∀ g ≠ emptyAtomicGroupID,
    (∀ tx ∈ groupTxs L g, tx ∈ S) ∨ ∀ tx ∈ groupTxs L g, tx.erase ∈ (D1 ++ D2).map PoolL2Tx.erase
  /-- The first filter discards a group exactly when it has failed. -/
  failed : ∀ g ≠ emptyAtomicGroupID, groupTxs L g ≠ [] →
    ((∀ tx ∈ groupTxs L g, tx.erase ∈ D1.map PoolL2Tx.erase) ↔ g ∈ F)
  /-- A group kept is a block of consecutive txs in pool order, whose requests all land inside
  the block on a tx with the requested fields. -/
  block : ∀ g ≠ emptyAtomicGroupID, groupTxs S g ≠ [] →
    ∃ pre post, S = pre ++ groupTxs L g ++ post ∧ (∀ tx ∈ pre ++ post, tx.atomicGroupID ≠ g) ∧
      ∀ i < (groupTxs L g).length, ∃ q, rqPosition (groupTxs L g) i = some q ∧
        RqFieldsMatch ((groupTxs L g).getD i .zero) ((groupTxs L g).getD q .zero)

/-! ### The first filter -/

section Failed

variable {F : GoMap AtomicGroupID FailedAtomicGroup} {g : AtomicGroupID}

/-- An atomic tx survives the first filter exactly when its group has not failed. -/
theorem survivesFailed_iff {tx : PoolL2Tx} (h : tx.atomicGroupID ≠ emptyAtomicGroupID) :
    survivesFailed F tx = true ↔ tx.atomicGroupID ∉ F := by
  simp [survivesFailed, isAtomic_iff.2 h, Option.isNone_iff_eq_none, AList.lookup_eq_none]

/-- A group that has not failed passes the first filter whole. -/
theorem groupTxs_filter_survivesFailed (L : List PoolL2Tx) (hF : g ∉ F) :
    groupTxs (L.filter (survivesFailed F)) g = groupTxs L g := by
  unfold groupTxs
  rw [List.filter_filter]
  refine List.filter_congr fun tx _ => ?_
  by_cases hx : tx.atomicGroupID = g
  · subst hx
    simp [survivesFailed, Option.isNone_iff_eq_none, AList.lookup_eq_none.2 hF]
  · simp [hx]

/-- A tx is discarded by the first filter, up to its annotation, exactly when a tx of the pool
with the same fields has not survived. -/
theorem mem_discarded_failed (k : SelectorConsts) (L : List PoolL2Tx) {tx : PoolL2Tx} :
    tx.erase ∈ (filterFailedAtomicGroups k L F).2.map PoolL2Tx.erase ↔
      ∃ t ∈ L, survivesFailed F t = false ∧ t.erase = tx.erase := by
  rw [filterFailedAtomicGroups_eq, List.map_map]
  simp [Function.comp_def, and_assoc]

end Failed

/-! ### The preparation -/

section Prepared

variable (k : SelectorConsts) (rt : PrepRuntime) (L : List PoolL2Tx)
  (F : GoMap AtomicGroupID FailedAtomicGroup) {S0 D1 S1 D2 S : List PoolL2Tx}

/-- The first filter keeps the txs that survive it. -/
theorem fst_eq_of_filterFailedAtomicGroups (h1 : filterFailedAtomicGroups k L F = (S0, D1)) :
    S0 = L.filter (survivesFailed F) :=
  (congrArg Prod.fst h1).symm.trans (by rw [filterFailedAtomicGroups_eq])

theorem prepared_perm (h1 : filterFailedAtomicGroups k L F = (S0, D1))
    (h2 : filterInvalidAtomicGroups k rt.invalidOrder S0 = (S1, D2)) (hS : S.Perm S1) :
    ((S ++ D1 ++ D2).map PoolL2Tx.erase).Perm (L.map PoolL2Tx.erase) := by
  have hF : ((S0 ++ D1).map PoolL2Tx.erase).Perm (L.map PoolL2Tx.erase) := by
    have h := filterFailedAtomicGroups_perm k L F
    rwa [h1] at h
  have hI : ((S1 ++ D2).map PoolL2Tx.erase).Perm (S0.map PoolL2Tx.erase) := by
    have h := filterInvalidAtomicGroups_perm k rt.invalidOrder S0
    rwa [h2] at h
  have hA : (S ++ D1 ++ D2).Perm (S1 ++ D2 ++ D1) := by
    rw [List.append_assoc, List.append_assoc]
    exact hS.append List.perm_append_comm
  refine (hA.map _).trans ?_
  rw [List.map_append]
  refine (hI.append_right _).trans ?_
  rwa [← List.map_append]

theorem prepared_whole_failed (h1 : filterFailedAtomicGroups k L F = (S0, D1))
    (h2 : filterInvalidAtomicGroups k rt.invalidOrder S0 = (S1, D2)) (hS : S.Perm S1)
    {g : AtomicGroupID} (hg : g ≠ emptyAtomicGroupID) (hne : groupTxs L g ≠ []) :
    ((∀ tx ∈ groupTxs L g, tx ∈ S) ∨ ∀ tx ∈ groupTxs L g, tx.erase ∈ (D1 ++ D2).map PoolL2Tx.erase) ∧
      ((∀ tx ∈ groupTxs L g, tx.erase ∈ D1.map PoolL2Tx.erase) ↔ g ∈ F) := by
  have hS0 := fst_eq_of_filterFailedAtomicGroups k L F h1
  have hD1 : ∀ tx : PoolL2Tx, tx.erase ∈ D1.map PoolL2Tx.erase ↔
      ∃ t ∈ L, survivesFailed F t = false ∧ t.erase = tx.erase := fun tx => by
    rw [← mem_discarded_failed k L, h1]
  have hmemD : ∀ {tx : PoolL2Tx}, tx.erase ∈ D1.map PoolL2Tx.erase ∨ tx.erase ∈ D2.map PoolL2Tx.erase →
      tx.erase ∈ (D1 ++ D2).map PoolL2Tx.erase := fun h => by rwa [List.map_append, List.mem_append]
  by_cases hgF : g ∈ F
  · have hall : ∀ tx ∈ groupTxs L g, tx.erase ∈ D1.map PoolL2Tx.erase := fun tx htx => by
      obtain ⟨htL, hid⟩ := mem_groupTxs.1 htx
      refine (hD1 tx).2 ⟨tx, htL, ?_, rfl⟩
      rw [← Bool.not_eq_true, survivesFailed_iff (hid ▸ hg), hid, not_not]
      exact hgF
    exact ⟨.inr fun tx htx => hmemD (.inl (hall tx htx)), iff_of_true hall hgF⟩
  · have hnotD1 : ¬∀ tx ∈ groupTxs L g, tx.erase ∈ D1.map PoolL2Tx.erase := fun hall => by
      obtain ⟨tx, htx⟩ := List.exists_mem_of_ne_nil _ hne
      obtain ⟨t, -, hts, he⟩ := (hD1 tx).1 (hall tx htx)
      have hid : t.atomicGroupID = g := by
        rw [← PoolL2Tx.atomicGroupID_erase, he, PoolL2Tx.atomicGroupID_erase]
        exact (mem_groupTxs.1 htx).2
      rw [← Bool.not_eq_true, survivesFailed_iff (hid ▸ hg), hid, not_not] at hts
      exact hgF hts
    refine ⟨?_, iff_of_false hnotD1 hgF⟩
    have hG0 : groupTxs S0 g = groupTxs L g := hS0 ▸ groupTxs_filter_survivesFailed L hgF
    have hG1 := groupTxs_filterInvalidAtomicGroups k rt.invalidOrder S0 hg
    rw [h2, hG0] at hG1
    cases hv : isAtomicGroupValid (groupTxs L g)
    · refine .inr fun tx htx => hmemD (.inr ?_)
      have h := mem_filterInvalidAtomicGroups_snd k rt.invalidOrder S0 hg (hG0 ▸ hv) (hG0 ▸ htx)
      rwa [h2] at h
    · rw [if_pos hv] at hG1
      exact .inl fun tx htx => hS.mem_iff.2 (mem_groupTxs.1 (hG1 ▸ htx)).1

theorem prepared_block (h1 : filterFailedAtomicGroups k L F = (S0, D1))
    (h2 : filterInvalidAtomicGroups k rt.invalidOrder S0 = (S1, D2))
    (h3 : sortL2Txs rt.sortOrder rt.sliceSort S1
      (calculateAtomicGroupsAverageFee k.float64 rt.averageOrder S1) = S)
    {g : AtomicGroupID} (hg : g ≠ emptyAtomicGroupID) (hne : groupTxs S g ≠ []) :
    ∃ pre post, S = pre ++ groupTxs L g ++ post ∧ (∀ tx ∈ pre ++ post, tx.atomicGroupID ≠ g) ∧
      ∀ i < (groupTxs L g).length, ∃ q, rqPosition (groupTxs L g) i = some q ∧
        RqFieldsMatch ((groupTxs L g).getD i .zero) ((groupTxs L g).getD q .zero) := by
  have hS0 := fst_eq_of_filterFailedAtomicGroups k L F h1
  have hne1 : groupTxs S1 g ≠ [] := fun h => by
    have hp : (groupTxs S g).Perm (groupTxs S1 g) :=
      (h3 ▸ sortL2Txs_perm _ _ _ _ : S.Perm S1).filter _
    rw [h] at hp
    exact hne hp.eq_nil
  have hG1 := groupTxs_filterInvalidAtomicGroups k rt.invalidOrder S0 hg
  rw [h2] at hG1
  split_ifs at hG1 with hv
  · have hgF : g ∉ F := by
      obtain ⟨tx, htx⟩ := List.exists_mem_of_ne_nil _ (hG1 ▸ hne1)
      obtain ⟨htS0, hid⟩ := mem_groupTxs.1 htx
      rw [hS0] at htS0
      exact hid ▸ (survivesFailed_iff (hid ▸ hg)).1 (List.mem_filter.1 htS0).2
    rw [hS0, groupTxs_filter_survivesFailed L hgF] at hG1 hv
    obtain ⟨pre, post, hSeq, hout⟩ := sortL2Txs_contiguous rt.sortOrder rt.sliceSort S1
      (calculateAtomicGroupsAverageFee k.float64 rt.averageOrder S1) hg hne1
    rw [h3, hG1] at hSeq
    exact ⟨pre, post, hSeq, hout, isAtomicGroupValid_iff.1 hv⟩
  · exact absurd hG1 hne1

/-- **The preparation loses nothing and keeps groups whole.** -/
theorem prepareSelection_spec (h1 : filterFailedAtomicGroups k L F = (S0, D1))
    (h2 : filterInvalidAtomicGroups k rt.invalidOrder S0 = (S1, D2))
    (h3 : sortL2Txs rt.sortOrder rt.sliceSort S1
      (calculateAtomicGroupsAverageFee k.float64 rt.averageOrder S1) = S) :
    PreparedFrom L F S D1 D2 :=
  have hS : S.Perm S1 := h3 ▸ sortL2Txs_perm _ _ _ _
  { perm := prepared_perm k rt L F h1 h2 hS
    whole := fun g hg => by
      by_cases hne : groupTxs L g = []
      · exact .inl fun tx htx => absurd htx (hne ▸ List.not_mem_nil tx)
      · exact (prepared_whole_failed k rt L F h1 h2 hS hg hne).1
    failed := fun _ hg hne => (prepared_whole_failed k rt L F h1 h2 hS hg hne).2
    block := fun _ hg hne => prepared_block k rt L F h1 h2 h3 hg hne }

/-- The list the selector works on holds txs of the pool whose groups have not failed. -/
theorem mem_prepareSelection {tx : PoolL2Tx} (h : tx ∈ (prepareSelection k rt L F).1) :
    tx ∈ L ∧ survivesFailed F tx = true := by
  rw [prepareSelection] at h
  have h1 := mem_filterInvalidAtomicGroups_fst k rt.invalidOrder ((sortL2Txs_perm _ _ _ _).subset h)
  rw [filterFailedAtomicGroups_eq] at h1
  exact List.mem_filter.1 h1

/-- The list the selector works on holds no tx of an invalid group: the group of an atomic tx of
it, as the pool holds it, passes `isAtomicGroupValid`. -/
theorem isAtomicGroupValid_of_mem_prepareSelection {tx : PoolL2Tx}
    (h : tx ∈ (prepareSelection k rt L F).1) (hat : tx.isAtomic = true) :
    isAtomicGroupValid (groupTxs L tx.atomicGroupID) = true := by
  have hg := isAtomic_iff.1 hat
  have hF := (survivesFailed_iff hg).1 (mem_prepareSelection k rt L F h).2
  rw [prepareSelection, filterFailedAtomicGroups_eq] at h
  have hG := groupTxs_filterInvalidAtomicGroups k rt.invalidOrder (L.filter (survivesFailed F)) hg
  rw [groupTxs_filter_survivesFailed L hF] at hG
  split_ifs at hG with hv
  · exact hv
  · have hmem := mem_groupTxs.2 ⟨(sortL2Txs_perm _ _ _ _).subset h, rfl⟩
    rw [hG] at hmem
    exact absurd hmem (List.not_mem_nil tx)

/-- **What a discarded tx says.**  Every tx the preparation discards is an atomic tx of the pool
with its annotation set: a tx of a failed group carries the failure's own reason when it is the tx
that made the group fail, and otherwise the message naming the group and that tx, with the
invalid-group code and type (`setInfoForFailedAtomicTx`); a tx of an invalid group carries the
invalid-group error. -/
theorem mem_prepareSelection_snd {tx : PoolL2Tx} (h : tx ∈ (prepareSelection k rt L F).2) :
    ∃ t ∈ L, t.isAtomic = true ∧
      ((∃ f, F.lookup t.atomicGroupID = some f ∧ tx = annotate t (setInfoForFailedAtomicTx k
          (t.txID == f.failedTxID) t.atomicGroupID f.failedTxID f.reason)) ∨
        (F.lookup t.atomicGroupID = none ∧ isAtomicGroupValid (groupTxs L t.atomicGroupID) = false ∧
          tx = annotate t (invalidAtomicGroupError k))) := by
  rw [prepareSelection, filterFailedAtomicGroups_eq, List.mem_append] at h
  rcases h with h | h
  · obtain ⟨t, ht, rfl⟩ := List.mem_map.1 h
    obtain ⟨htL, hts⟩ := List.mem_filter.1 ht
    simp only [survivesFailed, Bool.not_or, Bool.not_not, Bool.and_eq_true, Option.isNone_iff_eq_none,
      Bool.not_eq_true', Bool.eq_false_iff, ne_eq] at hts
    obtain ⟨hat, hl⟩ := hts
    obtain ⟨f, hf⟩ := Option.ne_none_iff_exists'.1 hl
    exact ⟨t, htL, hat, .inl ⟨f, hf, by rw [markFailed, hf]⟩⟩
  · rw [filterInvalidAtomicGroups_eq] at h
    obtain ⟨l, hl, htx⟩ := List.mem_flatten.1 h
    obtain ⟨e, he, rfl⟩ := List.mem_map.1 hl
    obtain ⟨he, hv⟩ := List.mem_filter.1 he
    obtain ⟨hg, -, he2⟩ := mem_entries_groupsOf.1 ((rt.invalidOrder.perm _).subset he)
    obtain ⟨t, ht, rfl⟩ := List.mem_map.1 htx
    rw [he2] at ht
    obtain ⟨ht0, hid⟩ := mem_groupTxs.1 ht
    obtain ⟨htL, hts⟩ := List.mem_filter.1 ht0
    have hF := (survivesFailed_iff (hid ▸ hg)).1 hts
    refine ⟨t, htL, isAtomic_iff.2 (hid ▸ hg), .inr ⟨AList.lookup_eq_none.2 hF, ?_, rfl⟩⟩
    rw [hid, ← groupTxs_filter_survivesFailed L (hid ▸ hF), ← he2]
    simpa using hv

/-- The list to select from and the discarded txs are the pool, up to the annotations. -/
theorem prepareSelection_perm :
    (((prepareSelection k rt L F).1 ++ (prepareSelection k rt L F).2).map PoolL2Tx.erase).Perm
      (L.map PoolL2Tx.erase) := by
  rw [prepareSelection]
  dsimp only
  rw [← List.append_assoc]
  exact prepared_perm k rt L F rfl rfl (sortL2Txs_perm _ _ _ _)

theorem length_prepareSelection_le : (prepareSelection k rt L F).1.length ≤ L.length := by
  have h := (prepareSelection_perm k rt L F).length_eq
  simp only [List.length_map, List.length_append] at h
  omega

end Prepared

/-- Constants for the concrete runs: empty texts, code `0`, exact arithmetic. -/
def sampleSelectorConsts : SelectorConsts := ⟨"", 0, "", fun _ => "", fun _ => "", id⟩

/-- The runtime that visits maps in storage order and sorts stably. -/
def inOrder : PrepRuntime := ⟨.id _, .id _, .id _, .stable _⟩

/-- Two txs of group `tieGroupID` requesting each other (offsets `+1` and `-1`), their `Rq`
fields those of the other. -/
def requestPair : List PoolL2Tx :=
  [{ PoolL2Tx.zero with atomicGroupID := tieGroupID, rqOffset := 1 },
    { PoolL2Tx.zero with atomicGroupID := tieGroupID, rqOffset := 7 }]

/-- A pool of a non-atomic tx and a valid group. -/
def examplePool : List PoolL2Tx := tieTx :: requestPair

/-- Nothing has failed and the group is valid, so the whole pool is kept, in its order. -/
theorem examplePool_prepared :
    filterFailedAtomicGroups sampleSelectorConsts examplePool ∅ = (examplePool, []) ∧
      filterInvalidAtomicGroups sampleSelectorConsts inOrder.invalidOrder examplePool =
        (examplePool, []) ∧
      sortL2Txs inOrder.sortOrder inOrder.sliceSort examplePool
        (calculateAtomicGroupsAverageFee id inOrder.averageOrder examplePool) = examplePool ∧
      PreparedFrom examplePool ∅ examplePool [] [] := by
  have h1 : filterFailedAtomicGroups sampleSelectorConsts examplePool ∅ = (examplePool, []) := by
    decide
  have h2 : filterInvalidAtomicGroups sampleSelectorConsts inOrder.invalidOrder examplePool =
      (examplePool, []) := by
    decide
  have hgroup : groupTxs examplePool tieGroupID = requestPair := by decide
  have hfee : feeOf (calculateAtomicGroupsAverageFee id inOrder.averageOrder examplePool)
      tieGroupID = 0 := by
    rw [feeOf, lookup_calculateAtomicGroupsAverageFee, hgroup, if_pos (by decide)]
    simp [meanFee, groupFeeSum, feeSum, hgroup, requestPair, PoolL2Tx.zero]
  have h3 : sortL2Txs inOrder.sortOrder inOrder.sliceSort examplePool
      (calculateAtomicGroupsAverageFee id inOrder.averageOrder examplePool) = examplePool := by
    have hkeys : (groupsOf examplePool).keys = [tieGroupID] := by decide
    have hnon : (examplePool.filter fun tx => !tx.isAtomic) = [tieTx] := by decide
    rw [sortL2Txs_eq, hkeys, hnon, List.perm_singleton.1 (inOrder.sortOrder.perm _),
      List.perm_singleton.1 (inOrder.sliceSort.perm _ _)]
    simp [sliceStable, mergeUnits, hfee, tieTx, unitTxs, hgroup]
    rfl
  exact ⟨h1, h2, h3, prepareSelection_spec sampleSelectorConsts inOrder examplePool ∅ h1 h2 h3⟩

/-! ### What the runtime decides -/

end TxSelector

end HermezNode
