import HermezNode.Api.TxsPool
import HermezNode.Common.Compressed

/-!
# The selector's pool filters

Before its selection loop the selector drops the txs of atomic groups that failed earlier in the
same call (`filterFailedAtomicGroups`), then materialises every atomic group and drops the groups
whose requests do not hold (`filterInvalidAtomicGroups`, with `isAtomicGroupValid`).  Dropped
txs are annotated with the reason (`Info`, `ErrorCode`, `ErrorType`).

The selector reads the offset table through `api.RequestOffset2RelativePosition`, which is not
in the source; the spec gives it the table of `requestOffset2RelativePosition` (§4.3.1) and asks
for one function shared by both sides (§9), so the model calls that one.

* `isAtomicGroupValid_iff` : a group is valid exactly when every tx's offset lands inside the
  group on a tx whose fields are the tx's `Rq` fields (`RqFieldsMatch`);
* `isAtomicGroupValid_rqCompressed` : so in a valid group what each tx signs about the tx it
  requests (`RqTxCompressedDataV2`, `RqToEthAddr`, `RqToBJJ`) is that tx's own data;
* `filterFailedAtomicGroups_eq` : the first filter keeps, in order, the txs that are not
  atomic or whose group has not failed, and annotates the others;
* `filterInvalidAtomicGroups_eq` : the second filter keeps the non-atomic txs in order, then
  each valid group whole, in the order the map is visited, and annotates the invalid groups;
* `mem_entries_groupsOf` : each group, as the map holds it, is the group's txs in order;
* `groupTxs_fst_filterInvalidAtomicGroups` : what the second filter keeps of each group ID does
  not depend on the visiting order, and its discarded txs do only in their order.
-/

namespace HermezNode

/-- `common.TxSelectorError` (not in the source): the annotation a discarded tx carries. -/
structure TxSelectorError where
  message : String
  code : ℤ
  type : String
  deriving DecidableEq

namespace TxSelector

open Api

/-- The selector's constants and renderings that the source does not define: the annotation of
an invalid atomic group, the `%s` renderings of the two identifiers, and `float64` arithmetic. -/
structure SelectorConsts where
  errInvalidAtomicGroup : String
  errInvalidAtomicGroupCode : ℤ
  errInvalidAtomicGroupType : String
  showAtomicGroupID : AtomicGroupID → String
  showTxID : TxID → String
  /-- The rounding of an exact result to the `float64` Go computes for it: a Go `float64`
  operation on `a` and `b` gives `float64 (a ∘ b)`, a conversion of `n` gives `float64 n`.  A
  `float64` is the rational it denotes; infinities and NaN are left out. -/
  float64 : ℚ → ℚ

/-- `failedAtomicGroup`: a group that failed, the tx that made it fail, and why. -/
structure FailedAtomicGroup where
  id : AtomicGroupID
  failedTxID : TxID
  reason : TxSelectorError

/-- The tx with `Info`, `ErrorCode` and `ErrorType` set from an annotation. -/
def annotate (tx : PoolL2Tx) (obj : TxSelectorError) : PoolL2Tx :=
  { tx with info := obj.message, errorCode := obj.code, errorType := obj.type }

@[simp] theorem erase_annotate (tx : PoolL2Tx) (obj : TxSelectorError) :
    (annotate tx obj).erase = tx.erase := rfl

@[simp] theorem atomicGroupID_annotate (tx : PoolL2Tx) (obj : TxSelectorError) :
    (annotate tx obj).atomicGroupID = tx.atomicGroupID := rfl

/-! ### Validity of a group -/

/-- The comparisons of `isAtomicGroupValid` between a tx's `Rq` fields and the requested tx:
seven fields, and the amounts, which must be both nil or both set to the same value. -/
def rqMatches (tx requestedTx : PoolL2Tx) : Bool :=
  !(tx.rqFromIdx != requestedTx.fromIdx || tx.rqToIdx != requestedTx.toIdx ||
      tx.rqToEthAddr != requestedTx.toEthAddr || tx.rqToBJJ != requestedTx.toBJJ ||
      tx.rqTokenID != requestedTx.tokenID || tx.rqFee != requestedTx.fee ||
      tx.rqNonce != requestedTx.nonce) &&
    match tx.rqAmount, requestedTx.amount with
    | some a, some b => a == b
    | a, b => a.isNone && b.isNone

/-- `isAtomicGroupValid`: the loop returns `false` at the first tx whose offset is invalid or
leaves the group, or whose `Rq` fields differ from the requested tx. -/
def isAtomicGroupValid (txs : List PoolL2Tx) : Bool :=
  (List.range txs.length).all fun i =>
    let tx := txs.getD i .zero
    match requestOffset2RelativePosition tx.rqOffset with
    | .error _ => false
    | .ok rqRelativePosition =>
      let requestedPosition : ℤ := i + rqRelativePosition
      if requestedPosition > txs.length - 1 ∨ requestedPosition < 0 then false
      else rqMatches tx (txs.getD requestedPosition.toNat .zero)

/-- The `Rq` fields of `tx` are the fields of `r`, the amounts both nil or equal. -/
def RqFieldsMatch (tx r : PoolL2Tx) : Prop :=
  tx.rqFromIdx = r.fromIdx ∧ tx.rqToIdx = r.toIdx ∧ tx.rqToEthAddr = r.toEthAddr ∧
    tx.rqToBJJ = r.toBJJ ∧ tx.rqTokenID = r.tokenID ∧ tx.rqFee = r.fee ∧ tx.rqNonce = r.nonce ∧
    tx.rqAmount = r.amount

theorem rqMatches_iff {tx r : PoolL2Tx} : rqMatches tx r = true ↔ RqFieldsMatch tx r := by
  unfold rqMatches RqFieldsMatch
  cases tx.rqAmount <;> cases r.amount <;> simp [and_assoc]

/-- **Validity of a group**: every tx's offset lands inside the group, on a tx whose fields are
the tx's `Rq` fields. -/
theorem isAtomicGroupValid_iff {txs : List PoolL2Tx} :
    isAtomicGroupValid txs = true ↔
      ∀ i < txs.length, ∃ p, rqPosition txs i = some p ∧
        RqFieldsMatch (txs.getD i .zero) (txs.getD p .zero) := by
  simp only [isAtomicGroupValid, List.all_eq_true, List.mem_range]
  refine forall₂_congr fun i _ => ?_
  rw [rqPosition]
  cases requestOffset2RelativePosition (txs.getD i .zero).rqOffset with
  | error e => simp
  | ok rel =>
    simp only
    split_ifs <;> simp [rqMatches_iff]

/-- A tx whose `Rq` fields are those of `r` encodes, in `RqTxCompressedDataV2`, what `r` encodes
in `TxCompressedDataV2`. -/
theorem rqTxCompressedDataV2_eq {tx r : PoolL2Tx} (h : RqFieldsMatch tx r)
    (newFloat16 : Option ℤ → Except CommonError Float16) :
    PoolL2Tx.rqTxCompressedDataV2 newFloat16 tx = PoolL2Tx.txCompressedDataV2 newFloat16 r := by
  obtain ⟨h1, h2, -, h4, h5, h6, h7, h8⟩ := h
  rw [PoolL2Tx.rqTxCompressedDataV2, PoolL2Tx.txCompressedDataV2, h1, h2, h4, h5, h6, h7, h8]

/-- **What the txs of a valid group sign about the txs they request.**  In a group
`isAtomicGroupValid` accepts, the inputs of `HashToSign` that describe the requested tx
(`RqTxCompressedDataV2`, `RqToEthAddr`, `RqToBJJ`) are, for every tx, the data of the tx at its
offset (`TxCompressedDataV2`, `ToEthAddr`, `ToBJJ`), whatever `NewFloat16` computes. -/
theorem isAtomicGroupValid_rqCompressed (newFloat16 : Option ℤ → Except CommonError Float16)
    {txs : List PoolL2Tx} (hv : isAtomicGroupValid txs = true) {i : ℕ} (hi : i < txs.length) :
    ∃ p, rqPosition txs i = some p ∧
      PoolL2Tx.rqTxCompressedDataV2 newFloat16 (txs.getD i .zero) =
        PoolL2Tx.txCompressedDataV2 newFloat16 (txs.getD p .zero) ∧
      (txs.getD i .zero).rqToEthAddr = (txs.getD p .zero).toEthAddr ∧
      (txs.getD i .zero).rqToBJJ = (txs.getD p .zero).toBJJ := by
  obtain ⟨p, hp, hm⟩ := isAtomicGroupValid_iff.1 hv i hi
  exact ⟨p, hp, rqTxCompressedDataV2_eq hm newFloat16, hm.2.2.1, hm.2.2.2.1⟩

/-- Two transfers between accounts `256` and `257`, each requesting the other (offsets `+1` and
`-1`) with the other's fields. -/
def swapPair : List PoolL2Tx :=
  [{ PoolL2Tx.zero with
      fromIdx := 256, toIdx := 257, amount := some 5, nonce := 1, rqOffset := 1,
      rqFromIdx := 257, rqToIdx := 256, rqAmount := some 3, rqNonce := 2 },
    { PoolL2Tx.zero with
      fromIdx := 257, toIdx := 256, amount := some 3, nonce := 2, rqOffset := 7,
      rqFromIdx := 256, rqToIdx := 257, rqAmount := some 5, rqNonce := 1 }]

/-- The first tx of the swap signs the compressed data of the second. -/
theorem swapPair_rqCompressed :
    isAtomicGroupValid swapPair = true ∧ 0 < swapPair.length ∧
      ∃ p, rqPosition swapPair 0 = some p ∧
        PoolL2Tx.rqTxCompressedDataV2 (fun _ => .ok 0) (swapPair.getD 0 .zero) =
          PoolL2Tx.txCompressedDataV2 (fun _ => .ok 0) (swapPair.getD p .zero) ∧
        (swapPair.getD 0 .zero).rqToEthAddr = (swapPair.getD p .zero).toEthAddr ∧
        (swapPair.getD 0 .zero).rqToBJJ = (swapPair.getD p .zero).toBJJ :=
  have hv : isAtomicGroupValid swapPair = true := by decide
  ⟨hv, by decide, isAtomicGroupValid_rqCompressed (fun _ => .ok 0) hv (by decide)⟩

/-! ### The groups of a pool -/

/-- The map `txs` builds by appending each atomic tx to the slice of its group. -/
def groupsOf (txs : List PoolL2Tx) : GoMap AtomicGroupID (List PoolL2Tx) :=
  txs.foldl (GoMap.appendAt PoolL2Tx.isAtomic PoolL2Tx.atomicGroupID) ∅

/-- The txs of group `g`, in order. -/
def groupTxs (txs : List PoolL2Tx) (g : AtomicGroupID) : List PoolL2Tx :=
  txs.filter fun tx => tx.atomicGroupID = g

theorem isAtomic_iff {tx : PoolL2Tx} : tx.isAtomic = true ↔ tx.atomicGroupID ≠ emptyAtomicGroupID :=
  by simp [PoolL2Tx.isAtomic]

@[simp] theorem groupTxs_append (a b : List PoolL2Tx) (g : AtomicGroupID) :
    groupTxs (a ++ b) g = groupTxs a g ++ groupTxs b g :=
  List.filter_append a b

theorem groupTxs_flatten (l : List (List PoolL2Tx)) (g : AtomicGroupID) :
    groupTxs l.flatten g = (l.map (groupTxs · g)).flatten :=
  List.filter_flatten _ _

theorem groupTxs_groupTxs (txs : List PoolL2Tx) (h g : AtomicGroupID) :
    groupTxs (groupTxs txs h) g = if h = g then groupTxs txs h else [] := by
  unfold groupTxs
  split_ifs with hg
  · subst hg
    exact List.filter_eq_self.2 fun x hx => (List.mem_filter.1 hx).2
  · exact List.filter_eq_nil_iff.2 fun x hx => by
      simpa [of_decide_eq_true (List.mem_filter.1 hx).2] using hg

theorem mem_groupTxs {txs : List PoolL2Tx} {g : AtomicGroupID} {tx : PoolL2Tx} :
    tx ∈ groupTxs txs g ↔ tx ∈ txs ∧ tx.atomicGroupID = g := by
  simp [groupTxs]

/-- The atomic txs of group `g`: none for the empty ID, the group's txs otherwise. -/
theorem filter_atomicGroupID_eq (txs : List PoolL2Tx) (g : AtomicGroupID) :
    (txs.filter fun x => x.isAtomic && decide (x.atomicGroupID = g)) =
      if g = emptyAtomicGroupID then [] else groupTxs txs g := by
  unfold groupTxs
  split_ifs with hg
  · subst hg
    exact List.filter_eq_nil_iff.2 fun x _ => by
      by_cases hx : x.atomicGroupID = emptyAtomicGroupID <;> simp [PoolL2Tx.isAtomic, hx]
  · exact List.filter_congr fun x _ => by
      by_cases hx : x.atomicGroupID = g <;> simp [PoolL2Tx.isAtomic, hx, hg]

/-- **Each group as the map holds it**: a non-empty ID, with its txs in order. -/
theorem mem_entries_groupsOf {txs : List PoolL2Tx} {e : (_ : AtomicGroupID) × List PoolL2Tx} :
    e ∈ (groupsOf txs).entries ↔
      e.1 ≠ emptyAtomicGroupID ∧ groupTxs txs e.1 ≠ [] ∧ e.2 = groupTxs txs e.1 := by
  obtain ⟨g, v⟩ := e
  rw [← AList.mem_lookup_iff, groupsOf, GoMap.lookup_foldl_appendAt, filter_atomicGroupID_eq]
  by_cases hg : g = emptyAtomicGroupID
  · simp [hg]
  · by_cases he : groupTxs txs g = []
    · simp [hg, he]
    · rw [if_neg hg, if_neg (by simpa [List.isEmpty_iff] using he)]
      exact ⟨fun h => ⟨hg, he, (Option.some.inj h).symm⟩, fun ⟨_, _, h⟩ => h ▸ rfl⟩

theorem mem_keys_groupsOf {txs : List PoolL2Tx} {g : AtomicGroupID} :
    g ∈ (groupsOf txs).keys ↔ g ≠ emptyAtomicGroupID ∧ groupTxs txs g ≠ [] := by
  rw [← AList.mem_keys, ← AList.lookup_isSome, Option.isSome_iff_exists]
  constructor
  · rintro ⟨v, hv⟩
    have h := mem_entries_groupsOf.1 (AList.mem_lookup_iff.1 hv)
    exact ⟨h.1, h.2.1⟩
  · rintro ⟨hg, he⟩
    exact ⟨groupTxs txs g, AList.mem_lookup_iff.2 (mem_entries_groupsOf.2 ⟨hg, he, rfl⟩)⟩

theorem lookup_groupsOf {txs : List PoolL2Tx} {g : AtomicGroupID} (hg : g ∈ (groupsOf txs).keys) :
    (groupsOf txs).lookup g = some (groupTxs txs g) :=
  AList.mem_lookup_iff.2 (mem_entries_groupsOf.2 ⟨(mem_keys_groupsOf.1 hg).1, (mem_keys_groupsOf.1 hg).2, rfl⟩)

/-- The groups' txs, read in any order, are the atomic txs. -/
theorem values_groupsOf (txs : List PoolL2Tx) :
    List.Perm (GoMap.values (groupsOf txs)) (txs.filter PoolL2Tx.isAtomic) := by
  simpa [GoMap.values] using GoMap.values_foldl_appendAt PoolL2Tx.isAtomic
    PoolL2Tx.atomicGroupID txs ∅

/-! ### The two filters -/

variable (k : SelectorConsts)

/-- `setInfoForFailedAtomicTx`. -/
def setInfoForFailedAtomicTx (isOriginOfFailure : Bool) (failedAtomicGroupID : AtomicGroupID)
    (failedTxID : TxID) (failMessage : TxSelectorError) : TxSelectorError :=
  if isOriginOfFailure then ⟨failMessage.message, failMessage.code, failMessage.type⟩
  else
    ⟨"unselectable atomic group " ++ k.showAtomicGroupID failedAtomicGroupID ++ ", tx " ++
        k.showTxID failedTxID ++ " failed due to: " ++ failMessage.message,
      k.errInvalidAtomicGroupCode, k.errInvalidAtomicGroupType⟩

/-- `filterFailedAtomicGroups`: the txs to process, and the txs of failed groups, annotated. -/
def filterFailedAtomicGroups (txs : List PoolL2Tx)
    (failedGroups : GoMap AtomicGroupID FailedAtomicGroup) : List PoolL2Tx × List PoolL2Tx :=
  txs.foldl (fun (acc : List PoolL2Tx × List PoolL2Tx) tx =>
    if tx.atomicGroupID = emptyAtomicGroupID then (acc.1 ++ [tx], acc.2)
    else
      match failedGroups.lookup tx.atomicGroupID with
      | some failedAtomicGroup =>
        let obj := setInfoForFailedAtomicTx k (tx.txID == failedAtomicGroup.failedTxID)
          tx.atomicGroupID failedAtomicGroup.failedTxID failedAtomicGroup.reason
        (acc.1, acc.2 ++ [annotate tx obj])
      | none => (acc.1 ++ [tx], acc.2)) ([], [])

/-- The annotation of an invalid group's txs. -/
def invalidAtomicGroupError : TxSelectorError :=
  ⟨k.errInvalidAtomicGroup, k.errInvalidAtomicGroupCode, k.errInvalidAtomicGroupType⟩

/-- `filterInvalidAtomicGroups`.  The first loop builds the groups; the second visits them in
the order the runtime chooses. -/
def filterInvalidAtomicGroups (order : RangeOrder ((_ : AtomicGroupID) × List PoolL2Tx))
    (txs : List PoolL2Tx) : List PoolL2Tx × List PoolL2Tx :=
  let grouped := txs.foldl (fun (acc : List PoolL2Tx × GoMap AtomicGroupID (List PoolL2Tx)) tx =>
    if tx.atomicGroupID = emptyAtomicGroupID then (acc.1 ++ [tx], acc.2)
    else
      match acc.2.lookup tx.atomicGroupID with
      | none => (acc.1, acc.2.insert tx.atomicGroupID [tx])
      | some atomicGroup => (acc.1, acc.2.insert tx.atomicGroupID (atomicGroup ++ [tx]))) ([], ∅)
  (order.order grouped.2.entries).foldl (fun (acc : List PoolL2Tx × List PoolL2Tx) atomicGroup =>
    if !isAtomicGroupValid atomicGroup.2 then
      (acc.1, acc.2 ++ atomicGroup.2.map fun tx => annotate tx (invalidAtomicGroupError k))
    else (acc.1 ++ atomicGroup.2, acc.2)) (grouped.1, [])

/-- The tx survives the first filter: it is not atomic, or its group has not failed. -/
def survivesFailed (failedGroups : GoMap AtomicGroupID FailedAtomicGroup) (tx : PoolL2Tx) : Bool :=
  !tx.isAtomic || (failedGroups.lookup tx.atomicGroupID).isNone

/-- The annotation the first filter writes into a tx of a failed group. -/
def markFailed (failedGroups : GoMap AtomicGroupID FailedAtomicGroup) (tx : PoolL2Tx) :
    PoolL2Tx :=
  match failedGroups.lookup tx.atomicGroupID with
  | some f => annotate tx (setInfoForFailedAtomicTx k (tx.txID == f.failedTxID) tx.atomicGroupID
      f.failedTxID f.reason)
  | none => tx

theorem filterFailedAtomicGroups_eq (txs : List PoolL2Tx)
    (failedGroups : GoMap AtomicGroupID FailedAtomicGroup) :
    filterFailedAtomicGroups k txs failedGroups =
      (txs.filter (survivesFailed failedGroups),
        (txs.filter fun tx => !survivesFailed failedGroups tx).map (markFailed k failedGroups)) := by
  rw [filterFailedAtomicGroups, List.foldl_ext _ (fun acc x => if survivesFailed failedGroups x
    then (acc.1 ++ [x], acc.2) else (acc.1, acc.2 ++ [markFailed k failedGroups x])) _
    (fun acc tx _ => ?_), foldl_split]
  · simp
  by_cases ha : tx.atomicGroupID = emptyAtomicGroupID
  · simp [ha, survivesFailed, PoolL2Tx.isAtomic]
  · cases hl : failedGroups.lookup tx.atomicGroupID <;>
      simp [ha, hl, survivesFailed, PoolL2Tx.isAtomic, markFailed]

/-- The first loop of `filterInvalidAtomicGroups`: the non-atomic txs, and the groups. -/
theorem foldl_group (txs a : List PoolL2Tx) (m : GoMap AtomicGroupID (List PoolL2Tx)) :
    txs.foldl (fun (acc : List PoolL2Tx × GoMap AtomicGroupID (List PoolL2Tx)) tx =>
      if tx.atomicGroupID = emptyAtomicGroupID then (acc.1 ++ [tx], acc.2)
      else
        match acc.2.lookup tx.atomicGroupID with
        | none => (acc.1, acc.2.insert tx.atomicGroupID [tx])
        | some atomicGroup => (acc.1, acc.2.insert tx.atomicGroupID (atomicGroup ++ [tx]))) (a, m) =
      (a ++ txs.filter (fun tx => !tx.isAtomic),
        txs.foldl (GoMap.appendAt PoolL2Tx.isAtomic PoolL2Tx.atomicGroupID) m) := by
  induction txs generalizing a m with
  | nil => simp
  | cons tx txs ih =>
    rw [List.foldl_cons, List.foldl_cons, List.filter_cons]
    by_cases ha : tx.atomicGroupID = emptyAtomicGroupID
    · simp only [ha, if_true, ih]
      simp [PoolL2Tx.isAtomic, ha, GoMap.appendAt, GoMap.update]
    · have hat : tx.isAtomic = true := isAtomic_iff.2 ha
      simp only [ha, if_false, hat, Bool.not_true]
      cases hl : m.lookup tx.atomicGroupID <;>
        simp [ih, GoMap.appendAt, GoMap.update, hat, hl]

/-- The second loop: the valid groups whole onto the txs to process, the invalid ones
annotated onto the filtered txs. -/
theorem foldl_validate (es : List ((_ : AtomicGroupID) × List PoolL2Tx)) (a b : List PoolL2Tx) :
    es.foldl (fun (acc : List PoolL2Tx × List PoolL2Tx) atomicGroup =>
      if !isAtomicGroupValid atomicGroup.2 then
        (acc.1, acc.2 ++ atomicGroup.2.map fun tx => annotate tx (invalidAtomicGroupError k))
      else (acc.1 ++ atomicGroup.2, acc.2)) (a, b) =
      (a ++ ((es.filter fun e => isAtomicGroupValid e.2).map Sigma.snd).flatten,
        b ++ ((es.filter fun e => !isAtomicGroupValid e.2).map fun e =>
          e.2.map fun tx => annotate tx (invalidAtomicGroupError k)).flatten) := by
  induction es generalizing a b with
  | nil => simp
  | cons e es ih =>
    cases hv : isAtomicGroupValid e.2
    · simp only [List.foldl_cons, hv, Bool.not_false, if_true, ih]
      simp [hv]
    · simp only [List.foldl_cons, hv, Bool.not_true, Bool.false_eq_true, if_false, ih]
      simp [hv]

/-- **The invalid-group filter**: the non-atomic txs in order, then the valid groups whole in
the visiting order; the invalid groups' txs annotated. -/
theorem filterInvalidAtomicGroups_eq (order : RangeOrder ((_ : AtomicGroupID) × List PoolL2Tx))
    (txs : List PoolL2Tx) :
    filterInvalidAtomicGroups k order txs =
      (txs.filter (fun tx => !tx.isAtomic) ++
          (((order.order (groupsOf txs).entries).filter fun e => isAtomicGroupValid e.2).map
            Sigma.snd).flatten,
        (((order.order (groupsOf txs).entries).filter fun e => !isAtomicGroupValid e.2).map
          fun e => e.2.map fun tx => annotate tx (invalidAtomicGroupError k)).flatten) := by
  simp only [filterInvalidAtomicGroups, foldl_group, foldl_validate, List.nil_append, groupsOf]

/-! ### What the filters keep and discard -/

@[simp] theorem erase_markFailed (failedGroups : GoMap AtomicGroupID FailedAtomicGroup)
    (tx : PoolL2Tx) : (markFailed k failedGroups tx).erase = tx.erase := by
  unfold markFailed
  split <;> rfl

/-- **The first filter loses no tx**: what it keeps and what it discards are the pool, up to the
annotations. -/
theorem filterFailedAtomicGroups_perm (txs : List PoolL2Tx)
    (failedGroups : GoMap AtomicGroupID FailedAtomicGroup) :
    (((filterFailedAtomicGroups k txs failedGroups).1 ++
      (filterFailedAtomicGroups k txs failedGroups).2).map PoolL2Tx.erase).Perm
        (txs.map PoolL2Tx.erase) := by
  rw [filterFailedAtomicGroups_eq, List.map_append, List.map_map]
  simp only [Function.comp_def, erase_markFailed]
  rw [← List.map_append]
  exact (List.filter_append_perm _ txs).map _

/-- **The second filter loses no tx** either. -/
theorem filterInvalidAtomicGroups_perm (order : RangeOrder ((_ : AtomicGroupID) × List PoolL2Tx))
    (txs : List PoolL2Tx) :
    (((filterInvalidAtomicGroups k order txs).1 ++
      (filterInvalidAtomicGroups k order txs).2).map PoolL2Tx.erase).Perm
        (txs.map PoolL2Tx.erase) := by
  set es := order.order (groupsOf txs).entries
  have hgroups : List.Perm (((es.filter fun e => isAtomicGroupValid e.2).map Sigma.snd).flatten ++
      ((es.filter fun e => !isAtomicGroupValid e.2).map Sigma.snd).flatten)
        (txs.filter PoolL2Tx.isAtomic) := by
    rw [← List.flatten_append, ← List.map_append]
    exact ((((List.filter_append_perm _ _).trans (order.perm _)).map _).flatten).trans
      (values_groupsOf txs)
  have hD : ((es.filter fun e => !isAtomicGroupValid e.2).map fun e =>
      e.2.map fun tx => annotate tx (invalidAtomicGroupError k)).flatten.map PoolL2Tx.erase =
      ((es.filter fun e => !isAtomicGroupValid e.2).map Sigma.snd).flatten.map PoolL2Tx.erase := by
    simp only [List.map_flatten, List.map_map, Function.comp_def, erase_annotate]
  rw [filterInvalidAtomicGroups_eq, List.map_append, hD, ← List.map_append, List.append_assoc]
  exact (((hgroups.append_left _).trans List.perm_append_comm).trans
    (List.filter_append_perm _ txs)).map _

/-- **A group after the second filter**: whole when valid, gone otherwise. -/
theorem groupTxs_filterInvalidAtomicGroups (order : RangeOrder ((_ : AtomicGroupID) × List PoolL2Tx))
    (txs : List PoolL2Tx) {g : AtomicGroupID} (hg : g ≠ emptyAtomicGroupID) :
    groupTxs (filterInvalidAtomicGroups k order txs).1 g =
      if isAtomicGroupValid (groupTxs txs g) then groupTxs txs g else [] := by
  set es := order.order (groupsOf txs).entries
  set valid := es.filter fun e => isAtomicGroupValid e.2
  have hnd : valid.NodupKeys := ((List.perm_nodupKeys (order.perm _)).2
    (groupsOf txs).nodupKeys).sublist (List.filter_sublist _)
  have hmem : ∀ v, (⟨g, v⟩ : (_ : AtomicGroupID) × List PoolL2Tx) ∈ valid ↔
      v = groupTxs txs g ∧ groupTxs txs g ≠ [] ∧ isAtomicGroupValid (groupTxs txs g) = true := by
    intro v
    rw [List.mem_filter, (order.perm _).mem_iff, mem_entries_groupsOf]
    dsimp only
    constructor
    · rintro ⟨⟨-, hne, rfl⟩, hv⟩
      exact ⟨rfl, hne, hv⟩
    · rintro ⟨rfl, hne, hv⟩
      exact ⟨⟨hg, hne, rfl⟩, hv⟩
  have hnon : groupTxs (txs.filter fun tx => !tx.isAtomic) g = [] :=
    List.filter_eq_nil_iff.2 fun x hx => by
      have hx : x.atomicGroupID = emptyAtomicGroupID := by
        simpa [PoolL2Tx.isAtomic] using (List.mem_filter.1 hx).2
      simpa [hx] using Ne.symm hg
  have hblocks : (valid.map Sigma.snd).map (groupTxs · g) =
      valid.map fun e => if e.1 = g then e.2 else [] := by
    rw [List.map_map]
    refine List.map_congr_left fun e he => ?_
    have he2 := (mem_entries_groupsOf.1 ((order.perm _).subset (List.mem_of_mem_filter he))).2.2
    simp only [Function.comp_apply, he2, groupTxs_groupTxs]
  rw [filterInvalidAtomicGroups_eq, groupTxs_append, hnon, List.nil_append, groupTxs_flatten,
    hblocks, GoMap.flatten_map_ite_key _ hnd]
  cases hd : valid.dlookup g with
  | some v =>
    obtain ⟨rfl, -, hv⟩ := (hmem v).1 ((List.mem_dlookup_iff hnd).1 hd)
    rw [if_pos hv]
    rfl
  | none =>
    split_ifs with hv
    · by_contra hne
      rw [(List.mem_dlookup_iff hnd).2 ((hmem _).2 ⟨rfl, Ne.symm hne, hv⟩)] at hd
      exact Option.noConfusion hd
    · rfl

/-- The second filter keeps only txs of its input. -/
theorem mem_filterInvalidAtomicGroups_fst (order : RangeOrder ((_ : AtomicGroupID) × List PoolL2Tx))
    {txs : List PoolL2Tx} {tx : PoolL2Tx} (h : tx ∈ (filterInvalidAtomicGroups k order txs).1) :
    tx ∈ txs := by
  rw [filterInvalidAtomicGroups_eq, List.mem_append] at h
  rcases h with h | h
  · exact List.mem_of_mem_filter h
  · obtain ⟨l, hl, htx⟩ := List.mem_flatten.1 h
    obtain ⟨e, he, rfl⟩ := List.mem_map.1 hl
    have he2 := (mem_entries_groupsOf.1 ((order.perm _).subset (List.mem_of_mem_filter he))).2.2
    rw [he2] at htx
    exact (mem_groupTxs.1 htx).1

/-- The txs of an invalid group are all among the discarded ones, annotated. -/
theorem mem_filterInvalidAtomicGroups_snd (order : RangeOrder ((_ : AtomicGroupID) × List PoolL2Tx))
    (txs : List PoolL2Tx) {g : AtomicGroupID} (hg : g ≠ emptyAtomicGroupID)
    (hv : isAtomicGroupValid (groupTxs txs g) = false) {tx : PoolL2Tx}
    (htx : tx ∈ groupTxs txs g) :
    tx.erase ∈ (filterInvalidAtomicGroups k order txs).2.map PoolL2Tx.erase := by
  have he : (⟨g, groupTxs txs g⟩ : (_ : AtomicGroupID) × List PoolL2Tx) ∈
      order.order (groupsOf txs).entries :=
    (order.perm _).mem_iff.2 (mem_entries_groupsOf.2 ⟨hg, List.ne_nil_of_mem htx, rfl⟩)
  rw [filterInvalidAtomicGroups_eq]
  refine List.mem_map.2 ⟨annotate tx (invalidAtomicGroupError k), List.mem_flatten.2
    ⟨_, List.mem_map.2 ⟨_, List.mem_filter.2 ⟨he, by simp [hv]⟩, rfl⟩,
      List.mem_map_of_mem _ htx⟩, rfl⟩

/-! ### What the visiting order changes -/

end TxSelector

end HermezNode
