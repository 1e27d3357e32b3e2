import HermezNode.Go.Runtime
import HermezNode.Common.Types

/-!
# The coordinator's fees and the batch's capacity

When the last round of a selection ends, `getL1L2TxSelection` pays every fee the processor
accumulated (`tp.AccumulatedFees`, keyed by the idx of the coordinator's account for the fee's
token) into that account: for each positive fee it reads the account from the local accounts DB,
adds the fee to the balance and writes the account back, and returns at the first read or write
that fails.  Go visits the map in an order it leaves open (`RangeOrder`).  The DB is not in the
source: `AccountsDB` gives its two operations, with the law that a write is read back and touches
no other account.

The verifier, not in the source, asks `canAddL2Tx` and `canAddL2TxThatNeedsNewCoordL1Tx` whether
the batch has room for one more L2 tx, without or with an L1 tx that creates the coordinator's
account for its token.

* `getAccount_payFee` : one iteration pays its account the fee, when positive, and touches no
  other account;
* `payFees_spec` : the loop over distinct idxs pays each account it visits its own fee, once, and
  visits them all when it succeeds;
* `payFee_eq_error` : an iteration fails only on a positive fee whose account cannot be read or
  written;
* `distributeAccumulatedFees_spec` : **every coordinator account is paid its fee at most once**,
  in whatever order the map is visited, and every positive fee is paid when the loop succeeds;
  a loop fails only on an account with a positive fee it cannot read or write, having paid the
  fees it visited first, so which ones depends on the order;
* `canAddL2TxThatNeedsNewCoordL1Tx_iff` : the check for an L2 tx that needs a coordinator L1 tx
  is `canAddL2Tx` with that L1 tx counted, within the L1 capacity.
-/

namespace HermezNode

namespace TxSelector

/-- The local accounts DB of the selector, as the fee loop uses it on a state `S`:
`GetAccount`, and `UpdateAccount`, which, when it succeeds, writes the account it is given and no
other. -/
structure AccountsDB (S : Type) where
  getAccount : S → Idx → Except String Account
  updateAccount : S → Idx → Account → Except String S
  getAccount_updateAccount : ∀ {s s' : S} {idx : Idx} {acc : Account},
    updateAccount s idx acc = .ok s' →
      ∀ j, getAccount s' j = if j = idx then .ok acc else getAccount s j

variable {S : Type} (db : AccountsDB S)

/-- One iteration of the fee loop, for the fee `accumulatedFee` accumulated for the account
`idx`: a positive fee is added to the balance of the account, read from the DB and written back. -/
def payFee (s : S) (idx : Idx) (accumulatedFee : ℤ) : Except String S :=
  if 0 < accumulatedFee then do
    let accCoord ← db.getAccount s idx
    db.updateAccount s idx { accCoord with balance := accCoord.balance + accumulatedFee }
  else pure s

/-- The fee loop over the entries of `tp.AccumulatedFees` in the order visited, from the DB state
`s`: the state it leaves, and its result.  It returns at the first iteration that fails, which
leaves the state as it was. -/
def payFees : List ((_ : Idx) × ℤ) → S → S × Except String Unit
  | [], s => (s, .ok ())
  | ⟨idx, accumulatedFee⟩ :: fees, s =>
    match payFee db s idx accumulatedFee with
    | .error err => (s, .error err)
    | .ok s' => payFees fees s'

/-- The loop of `getL1L2TxSelection` that pays `tp.AccumulatedFees` into the coordinator's
accounts, visiting the map in the order `order`. -/
def distributeAccumulatedFees (order : RangeOrder ((_ : Idx) × ℤ)) (accumulatedFees : GoMap Idx ℤ)
    (s : S) : S × Except String Unit :=
  payFees db (order.order accumulatedFees.entries) s

/-- An account paid `fee`, when it is positive. -/
def creditFee (fee : ℤ) (acc : Account) : Account :=
  if 0 < fee then { acc with balance := acc.balance + fee } else acc

/-- The fee accumulated for `idx`; none is `0`. -/
def feeAt (fees : GoMap Idx ℤ) (idx : Idx) : ℤ := (fees.lookup idx).getD 0

theorem creditFee_of_nonpos {fee : ℤ} (h : ¬0 < fee) : creditFee fee = id :=
  funext fun _ => if_neg h

@[simp] theorem map_creditFee_zero (e : Except String Account) : e.map (creditFee 0) = e := by
  rw [creditFee_of_nonpos (lt_irrefl 0)]
  cases e <;> rfl

variable {db}

/-- **One iteration** pays the account its fee, when positive, and touches no other account. -/
theorem getAccount_payFee {s s' : S} {i : Idx} {fee : ℤ} (h : payFee db s i fee = .ok s')
    (j : Idx) : db.getAccount s' j =
      if j = i then (db.getAccount s i).map (creditFee fee) else db.getAccount s j := by
  unfold payFee at h
  split_ifs at h with hpos
  · cases hg : db.getAccount s i with
    | error e => simp [hg, bind, Except.bind] at h
    | ok acc =>
      simp only [hg, bind, Except.bind] at h
      rw [db.getAccount_updateAccount h j]
      split_ifs <;> simp [Except.map, creditFee, hpos]
  · cases h
    split_ifs with hj
    · rw [hj, creditFee_of_nonpos hpos]
      cases db.getAccount s i <;> rfl
    · rfl

/-- An iteration fails only on a positive fee, when the account cannot be read or the account
with the fee added cannot be written. -/
theorem payFee_eq_error {s : S} {i : Idx} {fee : ℤ} {err : String}
    (h : payFee db s i fee = .error err) :
    0 < fee ∧ (db.getAccount s i = .error err ∨ ∃ acc, db.getAccount s i = .ok acc ∧
      db.updateAccount s i { acc with balance := acc.balance + fee } = .error err) := by
  unfold payFee at h
  split_ifs at h with hpos
  · refine ⟨hpos, ?_⟩
    cases hg : db.getAccount s i with
    | error e =>
      simp only [hg, bind, Except.bind, Except.error.injEq] at h
      exact .inl (h ▸ rfl)
    | ok acc =>
      simp only [hg, bind, Except.bind] at h
      exact .inr ⟨acc, rfl, h⟩
  · cases h

/-- **The loop** over distinct idxs pays the accounts it visits, each its own fee and once, and
leaves every other account as it was; when it succeeds it has visited them all, and when it fails
the iteration of an idx it has not paid failed, on the state it leaves. -/
theorem payFees_spec :
    ∀ (fees : List ((_ : Idx) × ℤ)), fees.NodupKeys → ∀ s : S, ∃ visited ⊆ fees.keys,
      (∀ j, db.getAccount (payFees db fees s).1 j =
        (db.getAccount s j).map (creditFee (if j ∈ visited then (fees.dlookup j).getD 0 else 0))) ∧
      ((payFees db fees s).2 = .ok () → visited = fees.keys) ∧
      ∀ err, (payFees db fees s).2 = .error err → ∃ j ∈ fees.keys, j ∉ visited ∧
        payFee db (payFees db fees s).1 j ((fees.dlookup j).getD 0) = .error err
  | [], _, s => ⟨[], List.nil_subset _, by simp [payFees], fun _ => rfl, fun _ h => nomatch h⟩
  | ⟨i, fee⟩ :: fees, hnd, s => by
    rw [List.nodupKeys_cons] at hnd
    cases hp : payFee db s i fee with
    | error err =>
      refine ⟨[], List.nil_subset _, fun j => by simp [payFees, hp],
        fun h => by simp [payFees, hp] at h, fun e h => ⟨i, by simp, List.not_mem_nil i, ?_⟩⟩
      simp only [payFees, hp, Except.error.injEq] at h ⊢
      rw [List.dlookup_cons_eq, Option.getD_some, hp, h]
    | ok s1 =>
      obtain ⟨v, hv, hget, hok, herr⟩ := payFees_spec fees hnd.2 s1
      have hrun : payFees db (⟨i, fee⟩ :: fees) s = payFees db fees s1 := by simp [payFees, hp]
      have hi : i ∉ v := fun h => hnd.1 (hv h)
      refine ⟨i :: v, List.cons_subset_cons _ hv, fun j => ?_, fun h => ?_, fun e h => ?_⟩
      · rw [hrun, hget j, getAccount_payFee hp j]
        by_cases hji : j = i
        · subst hji
          simp [hi, List.dlookup_cons_eq]
        · simp [hji, List.dlookup_cons_ne fees ⟨i, fee⟩ hji]
      · rw [hok (hrun ▸ h)]
        rfl
      · obtain ⟨j, hj, hjv, hfail⟩ := herr e (hrun ▸ h)
        have hji : j ≠ i := fun hji => hnd.1 (hji ▸ hj)
        refine ⟨j, List.mem_cons_of_mem i hj, by simp [hji, hjv], ?_⟩
        rwa [hrun, List.dlookup_cons_ne fees ⟨i, fee⟩ hji]

/-- The map's entries, in any visiting order, have distinct idxs. -/
theorem nodupKeys_order (order : RangeOrder ((_ : Idx) × ℤ)) (fees : GoMap Idx ℤ) :
    (order.order fees.entries).NodupKeys :=
  (List.perm_nodupKeys (order.perm _)).2 fees.nodupKeys

/-- The fee the loop reads for an idx, in any visiting order, is the one the map holds. -/
theorem dlookup_order (order : RangeOrder ((_ : Idx) × ℤ)) (fees : GoMap Idx ℤ) (j : Idx) :
    ((order.order fees.entries).dlookup j).getD 0 = feeAt fees j := by
  rw [List.perm_dlookup j (nodupKeys_order order fees) fees.nodupKeys (order.perm _)]
  rfl

variable (db)

/-- **Every coordinator account is paid its fee at most once, and the loop fails only on an
account it cannot read or write.**  In whatever order the map is visited, the fee loop leaves each
account either as it was or paid exactly the fee accumulated for it, which is positive.  When it
succeeds it has paid every positive fee.  When it fails, the error is that of `GetAccount` or
`UpdateAccount` for an account with a positive fee that it has not paid, `UpdateAccount` on the
state it leaves.  Which accounts a failed loop has paid depends on the order. -/
theorem distributeAccumulatedFees_spec (order : RangeOrder ((_ : Idx) × ℤ)) (fees : GoMap Idx ℤ)
    (s : S) : ∃ paid : List Idx, (∀ j ∈ paid, 0 < feeAt fees j) ∧
      (∀ j, db.getAccount (distributeAccumulatedFees db order fees s).1 j =
        (db.getAccount s j).map (creditFee (if j ∈ paid then feeAt fees j else 0))) ∧
      ((distributeAccumulatedFees db order fees s).2 = .ok () → ∀ j, 0 < feeAt fees j → j ∈ paid) ∧
      ∀ err, (distributeAccumulatedFees db order fees s).2 = .error err →
        ∃ j, 0 < feeAt fees j ∧ j ∉ paid ∧ (db.getAccount s j = .error err ∨
          ∃ acc, db.getAccount s j = .ok acc ∧
            db.updateAccount (distributeAccumulatedFees db order fees s).1 j
              { acc with balance := acc.balance + feeAt fees j } = .error err) := by
  obtain ⟨v, -, hget, hok, herr⟩ := payFees_spec _ (nodupKeys_order order fees) s
  have hpaid : ∀ {j}, j ∈ v.filter (fun j => 0 < feeAt fees j) → j ∈ v := List.mem_of_mem_filter
  refine ⟨v.filter fun j => 0 < feeAt fees j, fun j hj => by simpa using (List.mem_filter.1 hj).2,
    fun j => ?_, fun h j hj => List.mem_filter.2 ⟨?_, by simpa using hj⟩, fun err h => ?_⟩
  · rw [distributeAccumulatedFees, hget j, dlookup_order]
    by_cases hpos : 0 < feeAt fees j
    · simp [hpos]
    · simp only [List.mem_filter, hpos, decide_False, and_false, if_false]
      split_ifs <;> simp [creditFee_of_nonpos hpos]
  · have hj : j ∈ fees.keys := by
      by_contra hn
      rw [feeAt, AList.lookup_eq_none.2 hn] at hj
      exact lt_irrefl 0 hj
    rw [hok h]
    exact ((order.perm _).map Sigma.fst).symm.subset hj
  · obtain ⟨j, -, hjv, hfail⟩ := herr err h
    rw [dlookup_order] at hfail
    obtain ⟨hpos, hfail⟩ := payFee_eq_error hfail
    have hread : db.getAccount (distributeAccumulatedFees db order fees s).1 j = db.getAccount s j := by
      rw [distributeAccumulatedFees, hget j, if_neg hjv, map_creditFee_zero]
    exact ⟨j, hpos, fun hj => hjv (hpaid hj), hread ▸ hfail⟩

/-- The accounts DB as a map from idx to account. -/
def mapDB : AccountsDB (GoMap Idx Account) where
  getAccount s idx :=
    match s.lookup idx with
    | some acc => .ok acc
    | none => .error "account not found"
  updateAccount s idx acc := .ok (s.insert idx acc)
  getAccount_updateAccount := by
    rintro s s' idx acc ⟨⟩ j
    by_cases h : j = idx
    · subst h
      simp
    · simp [AList.lookup_insert_ne h, h]

/-- Fees of `5` for accounts `1` and `2`, of which only `1` exists: visiting `1` first pays it and
fails; visiting `2` first fails and pays nothing. -/
example :
    ((distributeAccumulatedFees mapDB (.id _) ((∅ : GoMap Idx ℤ).insert 2 5 |>.insert 1 5)
      ((∅ : GoMap Idx Account).insert 1 ⟨0, 0, 0, emptyBJJComp⟩)).1.lookup 1).map Account.balance = some 5 ∧
    ((distributeAccumulatedFees mapDB ⟨List.reverse, List.reverse_perm⟩ ((∅ : GoMap Idx ℤ).insert 2 5 |>.insert 1 5)
      ((∅ : GoMap Idx Account).insert 1 ⟨0, 0, 0, emptyBJJComp⟩)).1.lookup 1).map Account.balance = some 0 := by
  decide

/-! ### The batch's capacity -/

/-- The part of `txprocessor.Config` the capacity checks read. -/
structure SelectionConfig where
  maxTx : UInt32
  maxL1Tx : UInt32

/-- `canAddL2TxThatNeedsNewCoordL1Tx`; the counts are the lengths of the lists of txs added. -/
def canAddL2TxThatNeedsNewCoordL1Tx (nAddedL1Txs nAddedL2txs : ℕ)
    (selectionConfig : SelectionConfig) : Bool :=
  decide (nAddedL1Txs < selectionConfig.maxL1Tx.toNat) &&
    decide (nAddedL1Txs + nAddedL2txs + 1 < selectionConfig.maxTx.toNat)

/-- `canAddL2Tx`. -/
def canAddL2Tx (nAddedL1Txs nAddedL2txs : ℕ) (selectionConfig : SelectionConfig) : Bool :=
  decide (nAddedL1Txs + nAddedL2txs < selectionConfig.maxTx.toNat)

/-- An L2 tx that needs an L1 tx creating the coordinator's account fits exactly when one more L1
tx fits and, that L1 tx counted, `canAddL2Tx` admits the L2 tx. -/
theorem canAddL2TxThatNeedsNewCoordL1Tx_iff (nAddedL1Txs nAddedL2txs : ℕ)
    (selectionConfig : SelectionConfig) :
    canAddL2TxThatNeedsNewCoordL1Tx nAddedL1Txs nAddedL2txs selectionConfig = true ↔
      nAddedL1Txs < selectionConfig.maxL1Tx.toNat ∧
        canAddL2Tx (nAddedL1Txs + 1) nAddedL2txs selectionConfig = true := by
  simp only [canAddL2TxThatNeedsNewCoordL1Tx, canAddL2Tx, Bool.and_eq_true, decide_eq_true_eq]
  omega

end TxSelector

end HermezNode
