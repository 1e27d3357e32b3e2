import HermezNode.TxSelector.Filter

/-!
# Admitted atomic groups at the selector

The pool API and the selector check an atomic group's requests in two different ways.
`postAtomicPool` copies a tx's `Rq` fields from the tx at its `RqOffset` only when that tx is
the one its `RqTxID` names, and accepts the payload when the `RqTxID`s form one cycle
(`isSingleAtomicGroup`); the selector's `isAtomicGroupValid` asks that the `Rq` fields of every
tx equal the fields of the tx at its `RqOffset`, whatever `RqTxID` says.

* `postAtomicPool_isAtomicGroupValid` : **an admitted group passes the selector exactly when**
  every tx whose `RqTxID` does not name the tx at its offset already carried, as sent, the
  fields of that tx;
* `offsetMismatch_accepted_invalid` : so a payload of three txs whose first tx names the second
  by ID and points at the third by offset, with its `Rq` fields left empty, is admitted, and the
  selector later discards it as invalid.
-/

namespace HermezNode

namespace TxSelector

open Api

/-- `RqFieldsMatch` reads only the requested tx's own fields. -/
theorem rqFieldsMatch_congr {tx r r' : PoolL2Tx} (h : eraseRq r = eraseRq r') :
    RqFieldsMatch tx r ↔ RqFieldsMatch tx r' :=
  show RqFieldsMatch tx (eraseRq r) ↔ RqFieldsMatch tx (eraseRq r') by rw [h]

theorem rqFieldsMatch_copyRq (tx r : PoolL2Tx) : RqFieldsMatch (copyRq tx r) r :=
  ⟨rfl, rfl, rfl, rfl, rfl, rfl, rfl, rfl⟩

/-- The loop leaves every request where it was. -/
theorem rqPosition_resolvedUpTo (txs : List PoolL2Tx) (k i : ℕ) :
    rqPosition (resolvedUpTo txs k) i = rqPosition txs i := by
  rw [rqPosition, rqPosition, rqOffset_eq_of_eraseRq (eraseRq_getD_resolvedUpTo k i),
    length_resolvedUpTo]

/-- A resolved tx matches the tx at its offset exactly when the loop copied its fields, or when
they matched as sent. -/
theorem rqFieldsMatch_resolveRq {txs : List PoolL2Tx} {i p : ℕ} (hp : rqPosition txs i = some p) :
    RqFieldsMatch (resolveRq txs i) (txs.getD p .zero) ↔
      (txs.getD i .zero).rqTxID = (txs.getD p .zero).txID ∨
        RqFieldsMatch (txs.getD i .zero) (txs.getD p .zero) := by
  unfold resolveRq
  rw [hp]
  dsimp only
  split_ifs with h
  · exact iff_of_true (rqFieldsMatch_copyRq _ _) (.inl h)
  · exact ⟨.inr, fun h' => h'.resolve_left h⟩

variable (c : Consts) (env : ApiEnv)

/-- **An admitted group passes the selector exactly when** every tx whose `RqTxID` does not name
the tx at its `RqOffset` position already carried, as sent, the fields of that tx. -/
theorem postAtomicPool_isAtomicGroupValid {txs stored : List PoolL2Tx}
    (h : postAtomicPool c env txs = .ok stored) :
    isAtomicGroupValid stored = true ↔
      ∀ i < txs.length, ∀ p, rqPosition txs i = some p →
        (txs.getD i .zero).rqTxID = (txs.getD p .zero).txID ∨
          RqFieldsMatch (txs.getD i .zero) (txs.getD p .zero) := by
  obtain ⟨-, hpos, rfl, -, -⟩ := (postAtomicPool_ok c env).1 h
  rw [isAtomicGroupValid_iff, length_resolvedUpTo]
  refine forall₂_congr fun i hi => ?_
  obtain ⟨p, hp⟩ := Option.isSome_iff_exists.1 (hpos i hi)
  rw [rqPosition_resolvedUpTo, hp, getD_resolvedUpTo hi, if_pos hi]
  simp only [Option.some.injEq, exists_eq_left', forall_eq']
  rw [rqFieldsMatch_congr (eraseRq_getD_resolvedUpTo _ p), rqFieldsMatch_resolveRq hp]

/-- Three transfers whose `RqTxID`s form the cycle `0 → 1 → 2 → 0`; the offsets point the
second and the third at the tx they name (`+1`, `-2`), and the first at the third (`+2`). -/
def offsetMismatch : List PoolL2Tx :=
  [requestingTransfer 256 (txIDOf 257) 2, requestingTransfer 257 (txIDOf 258) 1,
    requestingTransfer 258 (txIDOf 256) 6]

/-- The payload `offsetMismatch` is admitted, and the group stored is invalid at the selector:
its first tx names the second by ID but points at the third, whose fields its empty `Rq` fields
do not carry. -/
theorem offsetMismatch_accepted_invalid :
    postAtomicPool sampleConsts openEnv offsetMismatch = .ok (resolvedUpTo offsetMismatch 3) ∧
      isAtomicGroupValid (resolvedUpTo offsetMismatch 3) = false := by
  have hacc : postAtomicPool sampleConsts openEnv offsetMismatch =
      .ok (resolvedUpTo offsetMismatch 3) := rfl
  refine ⟨hacc, Bool.eq_false_iff.2 fun hv => ?_⟩
  rcases (postAtomicPool_isAtomicGroupValid sampleConsts openEnv hacc).1 hv 0 (by decide) 2 rfl with
    h | h
  · exact absurd h (by decide)
  · exact absurd h.1 (by decide)

end TxSelector

end HermezNode
