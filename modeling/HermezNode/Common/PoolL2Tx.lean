import HermezNode.Common.Types

/-!
# Type and ID of a pool transaction

`newPoolL2Tx` is `NewPoolL2Tx` of `common/pooll2tx.go`: it recomputes the type of a transaction
from its destination fields (`setType`) and its ID from `(FromIdx, Nonce)` (`setID`), and
rejects a supplied type or ID that disagrees with the recomputed one.

* `setID_spec` : `setID` succeeds exactly on 48-bit indices and 40-bit nonces and writes the
  prefix byte, the six bytes of `FromIdx` and the five bytes of `Nonce`; so IDs are equal
  exactly when the pairs are, the pair is decoded back by `TxID.decodeL2`, and `newPoolL2Tx`
  rejects a supplied non-zero ID that is not this encoding.
* `newPoolL2Tx_type` : an accepted transaction has the type its destination determines
  (`l2TypeOf`) whenever the destination determines one.
* `newPoolL2Tx_keeps_supplied_type` : when `ToIdx = 0` and the destination is neither a BabyJubJub
  key nor an Ethereum address, `setType` sets nothing and raises nothing, so the transaction is
  accepted with whatever type the client supplied.
-/

namespace HermezNode

/-- A byte array built from a list of its length (shorter lists are zero-padded). -/
def ByteArr.ofList {n : ℕ} (l : List UInt8) : ByteArr n :=
  ⟨(l ++ List.replicate n 0).take n, by simp⟩

@[simp] theorem ByteArr.toList_ofList {n : ℕ} {l : List UInt8} (h : l.length = n) :
    (ByteArr.ofList l : ByteArr n).toList = l := by
  subst h; simp [ByteArr.ofList, Mathlib.Vector.toList_mk]

namespace PoolL2Tx

variable (c : Consts)

/-- `SetType`. -/
def setType (tx : PoolL2Tx) : Except CommonError PoolL2Tx :=
  if tx.toIdx ≥ c.idxUserThreshold then .ok { tx with type := txTypeTransfer }
  else if tx.toIdx = 1 then .ok { tx with type := txTypeExit }
  else if tx.toIdx = 0 then
    if tx.toBJJ ≠ emptyBJJComp ∧ tx.toEthAddr = ffAddr then
      .ok { tx with type := txTypeTransferToBJJ }
    else if tx.toEthAddr ≠ ffAddr ∧ tx.toEthAddr ≠ emptyAddr then
      .ok { tx with type := txTypeTransferToEthAddr }
    else .ok tx
  else .error .malformedTransaction

/-- `SetID`: `TxID[0] = TxIDPrefixL2Tx`, then `FromIdx` into `TxID[1:7]` and `Nonce` into
`TxID[7:12]`. -/
def setID (tx : PoolL2Tx) : Except CommonError PoolL2Tx := do
  let id := tx.txID.toList.set 0 c.txIDPrefixL2Tx
  let fromIdxBytes ← tx.fromIdx.bytes
  let id := goCopy id 1 7 fromIdxBytes
  let nonceBytes ← tx.nonce.bytes
  let id := goCopy id 7 12 nonceBytes
  pure { tx with txID := ByteArr.ofList id }

/-- `NewPoolL2Tx`.  (On a wrong ID the source also returns the transaction; its callers only look
at the error.) -/
def newPoolL2Tx (tx : PoolL2Tx) : Except CommonError PoolL2Tx := do
  let txTypeOld := tx.type
  let tx ← setType c tx
  if txTypeOld ≠ "" ∧ txTypeOld ≠ tx.type then throw (.typeMismatch tx.type txTypeOld)
  let txIDOld := tx.txID
  let tx ← setID c tx
  if txIDOld ≠ ByteArr.zero 12 ∧ txIDOld ≠ tx.txID then throw (.txIDMismatch tx.txID txIDOld)
  pure tx

end PoolL2Tx

/-- The L2 ID of `(FromIdx, Nonce)`: the prefix, six bytes of the index, five of the nonce. -/
def l2TxIDBytes (c : Consts) (fromIdx : Idx) (nonce : Nonce) : List UInt8 :=
  c.txIDPrefixL2Tx :: (toBytesBE 6 fromIdx.toNat ++ toBytesBE 5 nonce.toNat)

/-- Reading `(FromIdx, Nonce)` back from an L2 `TxID`. -/
def TxID.decodeL2 (id : TxID) : Idx × Nonce :=
  (UInt64.ofNat (setBytes ((id.toList.drop 1).take 6)), UInt64.ofNat (setBytes (id.toList.drop 7)))

theorem uint64_ofNat_toNat (x : UInt64) : UInt64.ofNat x.toNat = x :=
  UInt64.toNat.inj (UInt64.toNat_ofNat_of_lt x.toNat_lt_size)

namespace PoolL2Tx

variable {c : Consts}

/-- `setType` changes the type and nothing else. -/
theorem setType_ok {tx t : PoolL2Tx} (h : setType c tx = .ok t) : t = { tx with type := t.type } := by
  unfold setType at h
  split_ifs at h <;> cases h <;> rfl

/-- The array `SetID` writes, whatever the old ID held. -/
theorem setID_bytes (id : TxID) (p : UInt8) (a b : List UInt8) (ha : a.length = 6)
    (hb : b.length = 5) : goCopy (goCopy (id.toList.set 0 p) 1 7 a) 7 12 b = p :: (a ++ b) := by
  obtain ⟨l, hl⟩ := id
  match l, hl with
  | [_, _, _, _, _, _, _, _, _, _, _, _], _ =>
    match a, ha, b, hb with
    | [_, _, _, _, _, _], _, [_, _, _, _, _], _ => rfl

/-- `setID` in one equation. -/
theorem setID_eq (tx : PoolL2Tx) :
    setID c tx =
      if tx.fromIdx.toNat < 2 ^ 48 ∧ tx.nonce.toNat < 2 ^ 40 then
        .ok { tx with txID := ByteArr.ofList (l2TxIDBytes c tx.fromIdx tx.nonce) }
      else if tx.fromIdx.toNat < 2 ^ 48 then .error .nonceOverflow else .error .idxOverflow := by
  by_cases hf : tx.fromIdx.toNat < 2 ^ 48
  · by_cases hn : tx.nonce.toNat < 2 ^ 40
    · simp only [setID, Idx.bytes_of_lt hf, Nonce.bytes_of_lt hn, if_pos (And.intro hf hn),
        l2TxIDBytes]
      rw [← setID_bytes tx.txID c.txIDPrefixL2Tx _ _ (length_toBytesBE _ _) (length_toBytesBE _ _)]
      rfl
    · simp only [setID, Idx.bytes_of_lt hf, Nonce.bytes_of_le (Nat.le_of_not_lt hn),
        if_neg (fun h : _ ∧ _ => hn h.2), if_pos hf]
      rfl
  · simp only [setID, Idx.bytes_of_le (Nat.le_of_not_lt hf), if_neg (fun h : _ ∧ _ => hf h.1),
      if_neg hf]
    rfl

theorem txID_setID {tx t : PoolL2Tx} (h : setID c tx = .ok t) :
    t.txID.toList = l2TxIDBytes c tx.fromIdx tx.nonce := by
  rw [setID_eq] at h
  split at h
  · cases h; simp [l2TxIDBytes]
  · split at h <;> cases h

theorem decodeL2_l2TxIDBytes {fromIdx : Idx} {nonce : Nonce} (hf : fromIdx.toNat < 2 ^ 48)
    (hn : nonce.toNat < 2 ^ 40) :
    TxID.decodeL2 (ByteArr.ofList (l2TxIDBytes c fromIdx nonce)) = (fromIdx, nonce) := by
  have h6 : (256 : ℕ) ^ 6 = 2 ^ 48 := by norm_num
  have h5 : (256 : ℕ) ^ 5 = 2 ^ 40 := by norm_num
  rw [TxID.decodeL2, ByteArr.toList_ofList (by simp [l2TxIDBytes]), l2TxIDBytes,
    List.drop_succ_cons, List.drop_zero, List.take_left' (length_toBytesBE 6 _),
    List.drop_succ_cons, List.drop_left' (length_toBytesBE 6 _), setBytes_toBytesBE,
    setBytes_toBytesBE, h6, h5, Nat.mod_eq_of_lt hf, Nat.mod_eq_of_lt hn, uint64_ofNat_toNat,
    uint64_ofNat_toNat]

theorem setID_ok_iff {tx : PoolL2Tx} :
    (∃ t, setID c tx = .ok t) ↔ tx.fromIdx.toNat < 2 ^ 48 ∧ tx.nonce.toNat < 2 ^ 40 := by
  rw [setID_eq]
  split_ifs <;> simp_all

theorem setID_ok {tx t : PoolL2Tx} (h : setID c tx = .ok t) :
    (tx.fromIdx.toNat < 2 ^ 48 ∧ tx.nonce.toNat < 2 ^ 40) ∧
      t = { tx with txID := ByteArr.ofList (l2TxIDBytes c tx.fromIdx tx.nonce) } := by
  rw [setID_eq] at h
  split_ifs at h with h1 h2
  exact ⟨h1, (Except.ok.inj h).symm⟩

theorem l2TxIDBytes_inj {f₁ f₂ : Idx} {n₁ n₂ : Nonce} (hf₁ : f₁.toNat < 2 ^ 48)
    (hf₂ : f₂.toNat < 2 ^ 48) (hn₁ : n₁.toNat < 2 ^ 40) (hn₂ : n₂.toNat < 2 ^ 40) :
    l2TxIDBytes c f₁ n₁ = l2TxIDBytes c f₂ n₂ ↔ f₁ = f₂ ∧ n₁ = n₂ := by
  have h6 : (2 : ℕ) ^ 48 = 256 ^ 6 := by norm_num
  have h5 : (2 : ℕ) ^ 40 = 256 ^ 5 := by norm_num
  refine ⟨fun h => ?_, fun ⟨h₁, h₂⟩ => h₁ ▸ h₂ ▸ rfl⟩
  obtain ⟨hf, hn⟩ := List.append_inj (List.cons_injective h) (by simp)
  rw [h6] at hf₁ hf₂
  rw [h5] at hn₁ hn₂
  exact ⟨UInt64.toNat.inj (toBytesBE_inj hf₁ hf₂ hf), UInt64.toNat.inj (toBytesBE_inj hn₁ hn₂ hn)⟩

/-- `NewPoolL2Tx` accepts a tx only through `SetType` and `SetID`, and returns what they give. -/
theorem newPoolL2Tx_steps {tx t : PoolL2Tx} (h : newPoolL2Tx c tx = .ok t) :
    ∃ t1, setType c tx = .ok t1 ∧ setID c t1 = .ok t := by
  unfold newPoolL2Tx at h
  cases h1 : setType c tx with
  | error e => simp [h1, bind, Except.bind] at h
  | ok t1 =>
    refine ⟨t1, rfl, ?_⟩
    cases h2 : setID c t1 with
    | error e => simp [h1, h2, bind, Except.bind, pure, Except.pure] at h; split_ifs at h
    | ok t2 =>
      suffices ht : t = t2 by rw [ht]
      simp only [h1, h2, bind, Except.bind, pure, Except.pure] at h
      split_ifs at h
      simp_all [throw, throwThe, MonadExceptOf.throw]

/-- A supplied non-zero ID other than the encoding of `(FromIdx, Nonce)` is rejected. -/
theorem newPoolL2Tx_rejects_txID {tx : PoolL2Tx} (h0 : tx.txID ≠ ByteArr.zero 12)
    (hne : tx.txID.toList ≠ l2TxIDBytes c tx.fromIdx tx.nonce) :
    ∃ e, newPoolL2Tx c tx = .error e := by
  unfold newPoolL2Tx
  cases h1 : setType c tx with
  | error e => exact ⟨e, rfl⟩
  | ok t1 =>
    have ht1 := setType_ok h1
    by_cases hty : tx.type ≠ "" ∧ tx.type ≠ t1.type
    · exact ⟨.typeMismatch t1.type tx.type,
        by simp [h1, hty, bind, Except.bind, throw, throwThe, MonadExceptOf.throw]⟩
    · cases h2 : setID c t1 with
      | error e => exact ⟨e, by simp [h1, hty, h2, bind, Except.bind, pure, Except.pure]⟩
      | ok t2 =>
        have hid : tx.txID ≠ t2.txID := by
          rw [(setID_ok h2).2, ht1]
          intro h; apply hne
          rw [h, ByteArr.toList_ofList (by simp [l2TxIDBytes])]
        refine ⟨.txIDMismatch t2.txID t1.txID, ?_⟩
        rw [ht1] at h2 ⊢
        simp [h1, hty, h2, h0, hid, bind, Except.bind, throw, throwThe, MonadExceptOf.throw, pure,
          Except.pure]

/-- **The L2 transaction ID.**  `SetID` succeeds exactly when `FromIdx < 2^48` and
`Nonce < 2^40`, and then writes `[TxIDPrefixL2Tx] ++ FromIdx (6 bytes) ++ Nonce (5 bytes)`; IDs
are equal exactly when the pairs are, and decode back to them; and `NewPoolL2Tx` rejects a
supplied non-zero ID other than this encoding. -/
theorem setID_spec (c : Consts) :
    (∀ tx : PoolL2Tx, (∃ t, setID c tx = .ok t) ↔
      tx.fromIdx.toNat < 2 ^ 48 ∧ tx.nonce.toNat < 2 ^ 40) ∧
    (∀ tx t : PoolL2Tx, setID c tx = .ok t → t.txID.toList = l2TxIDBytes c tx.fromIdx tx.nonce) ∧
    (∀ tx₁ tx₂ t₁ t₂ : PoolL2Tx, setID c tx₁ = .ok t₁ → setID c tx₂ = .ok t₂ →
      (t₁.txID = t₂.txID ↔ tx₁.fromIdx = tx₂.fromIdx ∧ tx₁.nonce = tx₂.nonce)) ∧
    (∀ tx t : PoolL2Tx, setID c tx = .ok t → TxID.decodeL2 t.txID = (tx.fromIdx, tx.nonce)) ∧
    (∀ tx : PoolL2Tx, tx.txID ≠ ByteArr.zero 12 →
      tx.txID.toList ≠ l2TxIDBytes c tx.fromIdx tx.nonce → ∃ e, newPoolL2Tx c tx = .error e) := by
  refine ⟨fun _ => setID_ok_iff, fun _ _ h => txID_setID h, fun _ _ _ _ h₁ h₂ => ?_,
    fun _ _ h => ?_, fun _ h0 hne => newPoolL2Tx_rejects_txID h0 hne⟩
  · obtain ⟨⟨hf₁, hn₁⟩, -⟩ := setID_ok h₁
    obtain ⟨⟨hf₂, hn₂⟩, -⟩ := setID_ok h₂
    rw [← l2TxIDBytes_inj hf₁ hf₂ hn₁ hn₂, ← txID_setID h₁, ← txID_setID h₂]
    exact ⟨congrArg _, Mathlib.Vector.eq _ _⟩
  · obtain ⟨⟨hf, hn⟩, rfl⟩ := setID_ok h
    exact decodeL2_l2TxIDBytes hf hn

end PoolL2Tx

/-! ### The type of an accepted transaction -/

/-- The type the destination fields determine, in the words of the spec (§6: "type inference from
`ToIdx`/`ToEthAddr`/`ToBJJ`"); `none` when they are of none of the four forms. -/
def l2TypeOf (c : Consts) (tx : PoolL2Tx) : Option TxType :=
  if tx.toIdx ≥ c.idxUserThreshold then some txTypeTransfer
  else if tx.toIdx = 1 then some txTypeExit
  else if tx.toIdx = 0 ∧ tx.toBJJ ≠ emptyBJJComp ∧ tx.toEthAddr = ffAddr then
    some txTypeTransferToBJJ
  else if tx.toIdx = 0 ∧ tx.toEthAddr ≠ ffAddr ∧ tx.toEthAddr ≠ emptyAddr then
    some txTypeTransferToEthAddr
  else none

namespace PoolL2Tx

variable {c : Consts}

/-- `setType` leaves the determined type, and the old one when none is determined. -/
theorem setType_type {tx t : PoolL2Tx} (h : setType c tx = .ok t) :
    t.type = (l2TypeOf c tx).getD tx.type := by
  unfold setType at h
  split_ifs at h with h1 h2 h3 h4 h5 <;> cases h <;> rw [l2TypeOf]
  · rw [if_pos h1]; rfl
  · rw [if_neg h1, if_pos h2]; rfl
  · rw [if_neg h1, if_neg h2, if_pos ⟨h3, h4⟩]; rfl
  · rw [if_neg h1, if_neg h2, if_neg fun h => h4 h.2, if_pos ⟨h3, h5⟩]; rfl
  · rw [if_neg h1, if_neg h2, if_neg fun h => h4 h.2, if_neg fun h => h5 h.2]; rfl

/-- `newPoolL2Tx` returns the type `setType` leaves. -/
theorem type_newPoolL2Tx {tx t : PoolL2Tx} (h : newPoolL2Tx c tx = .ok t) :
    ∃ t1, setType c tx = .ok t1 ∧ t.type = t1.type := by
  obtain ⟨t1, h1, h2⟩ := newPoolL2Tx_steps h
  exact ⟨t1, h1, by rw [(setID_ok h2).2]⟩

/-- An accepted transaction has the type its destination determines, whenever it determines
one. -/
theorem newPoolL2Tx_type {tx t : PoolL2Tx} {ty : TxType} (h : newPoolL2Tx c tx = .ok t)
    (hty : l2TypeOf c tx = some ty) : t.type = ty := by
  obtain ⟨t1, h1, ht⟩ := type_newPoolL2Tx h
  rw [ht, setType_type h1, hty, Option.getD_some]

/-- **A transaction with no destination keeps the client's type.**  With `ToIdx = 0`, no key and
no address, `SetType` has no branch that sets the type and none that fails, so `NewPoolL2Tx`
accepts the transaction with the type it came with. -/
theorem newPoolL2Tx_keeps_supplied_type {tx : PoolL2Tx} (h0 : tx.toIdx = 0)
    (hbjj : tx.toBJJ = emptyBJJComp) (heth : tx.toEthAddr = emptyAddr)
    (hid : tx.txID = ByteArr.zero 12) (hf : tx.fromIdx.toNat < 2 ^ 48)
    (hn : tx.nonce.toNat < 2 ^ 40) :
    l2TypeOf c tx = none ∧ ∃ t, newPoolL2Tx c tx = .ok t ∧ t.type = tx.type := by
  have hthr : ¬ tx.toIdx ≥ c.idxUserThreshold := by
    have := c.one_lt_idxUserThreshold
    rw [uint64_lt_iff] at this
    rw [ge_iff_le, uint64_le_iff, h0]
    exact Nat.not_le.2 (by simp; omega)
  have h01 : tx.toIdx ≠ 1 := by rw [h0]; decide
  have hs : setType c tx = .ok tx := by
    rw [setType, if_neg hthr, if_neg h01, if_pos h0, if_neg (fun h => h.1 hbjj),
      if_neg (fun h => h.2 heth)]
  refine ⟨?_, { tx with txID := ByteArr.ofList (l2TxIDBytes c tx.fromIdx tx.nonce) }, ?_, rfl⟩
  · rw [l2TypeOf, if_neg hthr, if_neg h01, if_neg (fun h => h.2.1 hbjj),
      if_neg (fun h => h.2.2 heth)]
  · have hsid := setID_eq (c := c) tx
    rw [if_pos ⟨hf, hn⟩] at hsid
    simp [newPoolL2Tx, hs, hsid, hid, bind, Except.bind, pure, Except.pure]

/-- An exit with no destination at all. -/
def exitWithoutDestination : PoolL2Tx where
  txID := ByteArr.zero 12
  fromIdx := 256
  toIdx := 0
  toEthAddr := emptyAddr
  toBJJ := emptyBJJComp
  tokenID := 0
  amount := some 1
  fee := 0
  nonce := 0
  rqFromIdx := 0
  rqToIdx := 0
  rqToEthAddr := emptyAddr
  rqToBJJ := emptyBJJComp
  rqTokenID := 0
  rqAmount := none
  rqFee := 0
  rqNonce := 0
  absoluteFee := 0
  type := txTypeExit
  rqTxID := emptyTxID
  rqOffset := 0
  atomicGroupID := emptyAtomicGroupID
  info := ""
  errorCode := 0
  errorType := ""

theorem exitWithoutDestination_accepted :
    exitWithoutDestination.toIdx = 0 ∧ exitWithoutDestination.toBJJ = emptyBJJComp ∧
      exitWithoutDestination.toEthAddr = emptyAddr ∧
      exitWithoutDestination.txID = ByteArr.zero 12 ∧
      exitWithoutDestination.fromIdx.toNat < 2 ^ 48 ∧ exitWithoutDestination.nonce.toNat < 2 ^ 40 ∧
      (l2TypeOf sampleConsts exitWithoutDestination = none ∧
        ∃ t, newPoolL2Tx sampleConsts exitWithoutDestination = .ok t ∧ t.type = txTypeExit) :=
  ⟨rfl, rfl, rfl, rfl, by decide, by decide,
    newPoolL2Tx_keeps_supplied_type rfl rfl rfl rfl (by decide) (by decide)⟩

end PoolL2Tx

end HermezNode
