import HermezNode.Common.Compressed

/-!
# The message a pool transaction's signature covers

`HashToSign` hashes with Poseidon six integers: `TxCompressedData` of the transaction, its
`ToEthAddr`, the `y` of its `ToBJJ`, `RqTxCompressedDataV2`, `RqToEthAddr` and the `y` of
`RqToBJJ` (`hashInputs`); `VerifySignature` checks the sender's signature against that hash.
Poseidon is not in the source and is the parameter `poseidon`; `EthAddrToBigInt` and the `y` of
`babyjub.UnpackSignY` are modelled from their definitions (big-endian address bytes; the
point's 32 little-endian bytes with the sign bit cleared).

* `BJJComp.eq_of_sign_y` : a compressed point is its sign and its `y`, so the hash's inputs
  carry the whole destination key;
* `hashInputs_eq_iff` : **the signature covers exactly the signed fields and the chain**: two
  transactions give the same inputs exactly when they are for the same chain ID and agree on
  every field `SignedFields` lists; `TxID`, `Type`, `RqTxID`, `RqOffset`, `AtomicGroupID`,
  `AbsoluteFee` and the annotations are not covered;
* `hashToSign_congr` : whatever Poseidon computes, transactions that agree on the signed fields
  hash alike.
-/

namespace HermezNode

/-- The `y` that `babyjub.UnpackSignY` returns: the point's 32 bytes read little-endian, bit 7 of
the last one, the sign, cleared. -/
def BJJComp.y (pk : BJJComp) : ℕ := setBytes (pk.toList.set 31 (pk.get 31 % 128)).reverse

/-- `EthAddrToBigInt`: the address's 20 bytes, read big-endian. -/
def ethAddrToBigInt (a : EthAddr) : ℕ := setBytes a.toList

/-- Byte strings of one length are their values. -/
theorem setBytes_inj {a b : List UInt8} (hl : a.length = b.length) (h : setBytes a = setBytes b) :
    a = b :=
  calc a = toBytesBE a.length (setBytes a) := (toBytesBE_setBytes a).symm
    _ = toBytesBE b.length (setBytes b) := by rw [hl, h]
    _ = b := toBytesBE_setBytes b

/-- A compressed point is its first 31 bytes followed by the last. -/
theorem BJJComp.toList_eq (pk : BJJComp) :
    ∃ a, a.length = 31 ∧ pk.toList = a ++ [pk.get 31] := by
  obtain ⟨a, x, hax⟩ : ∃ a x, pk.toList = a ++ [x] := by
    rcases pk.toList.eq_nil_or_concat with h | ⟨a, x, h⟩
    · simpa using congrArg List.length h
    · exact ⟨a, x, by rw [h, List.concat_eq_append]⟩
  have ha : a.length = 31 := by simpa using congrArg List.length hax
  have hx : some (pk.get 31) = some x := by
    rw [show some (pk.get 31) = pk.toList[31]? from (List.getElem?_eq_getElem _).symm, hax,
      List.getElem?_append_right (by omega)]
    simp [ha]
  exact ⟨a, ha, by rw [hax, Option.some.inj hx]⟩

/-- `y` is the last byte without its sign bit, above the 31 others read little-endian. -/
theorem BJJComp.y_eq (pk : BJJComp) {a : List UInt8} (ha : a.length = 31)
    (h : pk.toList = a ++ [pk.get 31]) :
    pk.y = (pk.get 31 % 128).toNat * 256 ^ 31 + setBytes a.reverse := by
  rw [BJJComp.y, h, List.set_append_right _ _ (by omega), ha, List.reverse_append,
    setBytes_append, List.length_reverse, ha, Nat.sub_self, List.set_cons_zero,
    List.reverse_singleton, setBytes_singleton]

/-- **A compressed point is its sign and its `y`.** -/
theorem BJJComp.eq_of_sign_y {p q : BJJComp} (hs : p.sign = q.sign) (hy : p.y = q.y) : p = q := by
  obtain ⟨a, ha, hp⟩ := p.toList_eq
  obtain ⟨b, hb, hq⟩ := q.toList_eq
  rw [p.y_eq ha hp, q.y_eq hb hq] at hy
  have hmod : ∀ {A r : ℕ}, r < 256 ^ 31 → (A * 256 ^ 31 + r) % 256 ^ 31 = r := fun hr => by
    rw [Nat.add_comm, Nat.add_mul_mod_self_right, Nat.mod_eq_of_lt hr]
  have hlo : setBytes a.reverse = setBytes b.reverse :=
    calc setBytes a.reverse = ((p.get 31 % 128).toNat * 256 ^ 31 + setBytes a.reverse) % 256 ^ 31 :=
          (hmod (ha ▸ a.length_reverse ▸ setBytes_lt _)).symm
      _ = setBytes b.reverse := by rw [hy, hmod (hb ▸ b.length_reverse ▸ setBytes_lt _)]
  have hhi : (p.get 31 % 128).toNat = (q.get 31 % 128).toNat := by
    rw [hlo] at hy
    exact Nat.eq_of_mul_eq_mul_right (by norm_num) (Nat.add_right_cancel hy)
  have hab : a = b := List.reverse_injective (setBytes_inj (by simp [ha, hb]) hlo)
  have hlast : p.get 31 = q.get 31 := by
    have hps := (p.get 31).toNat_lt_size
    have hqs := (q.get 31).toNat_lt_size
    have h128 : (128 : UInt8).toNat = 128 := rfl
    simp only [BJJComp.sign, decide_eq_decide] at hs
    simp only [UInt8.toNat_mod, h128] at hhi
    exact UInt8.toNat.inj (by simp only [UInt8.size] at hps hqs; omega)
  exact Mathlib.Vector.eq p q (by rw [hp, hq, hab, hlast])

/-- An address is its value. -/
theorem ethAddrToBigInt_inj {a b : EthAddr} (h : ethAddrToBigInt a = ethAddrToBigInt b) : a = b :=
  Mathlib.Vector.eq a b (setBytes_inj (by simp) h)

namespace PoolL2Tx

variable (c : Consts) (newFloat16 : Option ℤ → Except CommonError Float16)

/-- The six integers `HashToSign` hands to `poseidon.Hash`. -/
def hashInputs (tx : PoolL2Tx) (chainID : UInt16) : Except CommonError (List ℕ) := do
  let toCompressedData ← txCompressedData c newFloat16 tx chainID
  let toEthAddr := ethAddrToBigInt tx.toEthAddr
  let rqToEthAddr := ethAddrToBigInt tx.rqToEthAddr
  let toBJJY := tx.toBJJ.y
  let rqTxCompressedDataV2 ← rqTxCompressedDataV2 newFloat16 tx
  let rqToBJJY := tx.rqToBJJ.y
  pure [toCompressedData, toEthAddr, toBJJY, rqTxCompressedDataV2, rqToEthAddr, rqToBJJY]

/-- `HashToSign`, with `poseidon.Hash` the parameter `poseidon`: an error of the encoders
(`inl`) or of the hash (`inr`), or the hash of `hashInputs`. -/
def hashToSign {ε : Type} (poseidon : List ℕ → Except ε ℕ) (tx : PoolL2Tx) (chainID : UInt16) :
    Except (CommonError ⊕ ε) ℕ := do
  let inputs ← (hashInputs c newFloat16 tx chainID).mapError .inl
  (poseidon inputs).mapError .inr

/-- What of a pool transaction its signature covers: the fields `hashInputs` encodes, each amount
as `NewFloat16` encodes it (a `nil` requested amount as `0`). -/
structure SignedFields where
  toBJJ : BJJComp
  fee : FeeSelector
  nonce : Nonce
  tokenID : TokenID
  amount : Except CommonError Float16
  toIdx : Idx
  fromIdx : Idx
  toEthAddr : EthAddr
  rqToBJJ : BJJComp
  rqFee : FeeSelector
  rqNonce : Nonce
  rqTokenID : TokenID
  rqAmount : Except CommonError Float16
  rqToIdx : Idx
  rqFromIdx : Idx
  rqToEthAddr : EthAddr

/-- The signed fields of `tx`. -/
def signedFields (tx : PoolL2Tx) : SignedFields :=
  ⟨tx.toBJJ, tx.fee, tx.nonce, tx.tokenID, newFloat16 tx.amount, tx.toIdx, tx.fromIdx,
    tx.toEthAddr, tx.rqToBJJ, tx.rqFee, tx.rqNonce, tx.rqTokenID,
    newFloat16 (some (tx.rqAmount.getD 0)), tx.rqToIdx, tx.rqFromIdx, tx.rqToEthAddr⟩

variable {c newFloat16}

section Inversion

variable {toBJJ : BJJComp} {fee : FeeSelector} {nonce : Nonce} {tokenID : TokenID}
  {amount : Option ℤ} {toIdx fromIdx : Idx} {v : ℕ}

/-- A V2 encoding that succeeds had its nonce and indices within their widths and an amount
`NewFloat16` represents, and is their bytes' value. -/
theorem compressedDataV2_ok
    (h : compressedDataV2 newFloat16 toBJJ fee nonce tokenID amount toIdx fromIdx = .ok v) :
    ∃ f, newFloat16 (some (amount.getD 0)) = .ok f ∧ nonce.toNat < 2 ^ 40 ∧
      toIdx.toNat < 2 ^ 48 ∧ fromIdx.toNat < 2 ^ 48 ∧
      v = setBytes (compressedFieldsV2 (if toBJJ.sign then 1 else 0) fee nonce tokenID f toIdx
        fromIdx).flatten := by
  have ha : (if amount.isNone then some 0 else amount) = some (amount.getD 0) := by
    cases amount <;> rfl
  have h' := h
  simp only [compressedDataV2, ha, bind, Except.bind] at h'
  cases hf : newFloat16 (some (amount.getD 0)) with
  | error e => simp [hf] at h'
  | ok f =>
    have hn : nonce.toNat < 2 ^ 40 := by
      by_contra hn
      simp [hf, Nonce.bytes_of_le (not_lt.1 hn)] at h'
    have ht : toIdx.toNat < 2 ^ 48 := by
      by_contra ht
      simp [hf, Nonce.bytes_of_lt hn, Idx.bytes_of_le (not_lt.1 ht)] at h'
    have hfr : fromIdx.toNat < 2 ^ 48 := by
      by_contra hfr
      simp [hf, Nonce.bytes_of_lt hn, Idx.bytes_of_lt ht, Idx.bytes_of_le (not_lt.1 hfr)] at h'
    rw [compressedDataV2_eq hn ht hfr hf, Except.ok.injEq] at h
    exact ⟨f, rfl, hn, ht, hfr, h.symm⟩

/-- A `TxCompressedData` encoding that succeeds had its nonce and indices within their widths and
an amount `NewFloat16` represents, and is their bytes' value. -/
theorem txCompressedData_ok {tx : PoolL2Tx} {chainID : UInt16} {v : ℕ}
    (h : txCompressedData c newFloat16 tx chainID = .ok v) :
    ∃ f, newFloat16 tx.amount = .ok f ∧ tx.nonce.toNat < 2 ^ 40 ∧ tx.toIdx.toNat < 2 ^ 48 ∧
      tx.fromIdx.toNat < 2 ^ 48 ∧
      v = setBytes ((compressedFieldsV2 (if tx.toBJJ.sign then 1 else 0) tx.fee tx.nonce tx.tokenID f
        tx.toIdx tx.fromIdx).flatten ++ toBytesBE 2 chainID.toNat ++
        c.signatureConstantBytes.toList) := by
  have h' := h
  simp only [txCompressedData, bind, Except.bind] at h'
  cases hf : newFloat16 tx.amount with
  | error e => simp [hf] at h'
  | ok f =>
    have hn : tx.nonce.toNat < 2 ^ 40 := by
      by_contra hn
      simp [hf, Nonce.bytes_of_le (not_lt.1 hn)] at h'
    have ht : tx.toIdx.toNat < 2 ^ 48 := by
      by_contra ht
      simp [hf, Nonce.bytes_of_lt hn, Idx.bytes_of_le (not_lt.1 ht)] at h'
    have hfr : tx.fromIdx.toNat < 2 ^ 48 := by
      by_contra hfr
      simp [hf, Nonce.bytes_of_lt hn, Idx.bytes_of_lt ht, Idx.bytes_of_le (not_lt.1 hfr)] at h'
    rw [txCompressedData_eq c hn ht hfr hf, Except.ok.injEq] at h
    exact ⟨f, rfl, hn, ht, hfr, h.symm⟩

/-- The hash's inputs, when both encoders succeed. -/
theorem hashInputs_eq_ok {tx : PoolL2Tx} {chainID : UInt16} {m : List ℕ} :
    hashInputs c newFloat16 tx chainID = .ok m ↔
      ∃ v vr, txCompressedData c newFloat16 tx chainID = .ok v ∧
        rqTxCompressedDataV2 newFloat16 tx = .ok vr ∧
        m = [v, ethAddrToBigInt tx.toEthAddr, tx.toBJJ.y, vr, ethAddrToBigInt tx.rqToEthAddr,
          tx.rqToBJJ.y] := by
  unfold hashInputs
  cases txCompressedData c newFloat16 tx chainID <;> cases rqTxCompressedDataV2 newFloat16 tx <;>
    simp [bind, Except.bind, pure, Except.pure, eq_comm]

theorem toNat_signByte_inj {b b' : Bool}
    (h : (if b then (1 : UInt8) else 0).toNat = (if b' then (1 : UInt8) else 0).toNat) : b = b' := by
  cases b <;> cases b' <;> simp_all

/-- Two `TxCompressedData` encodings of the same value agree on the chain ID and on every field
they encode. -/
theorem txCompressedData_inj {tx tx' : PoolL2Tx} {chainID chainID' : UInt16} {v : ℕ}
    (h : txCompressedData c newFloat16 tx chainID = .ok v)
    (h' : txCompressedData c newFloat16 tx' chainID' = .ok v) :
    chainID' = chainID ∧ tx'.toBJJ.sign = tx.toBJJ.sign ∧ tx'.fee = tx.fee ∧ tx'.nonce = tx.nonce ∧
      tx'.tokenID = tx.tokenID ∧ newFloat16 tx'.amount = newFloat16 tx.amount ∧
      tx'.toIdx = tx.toIdx ∧ tx'.fromIdx = tx.fromIdx := by
  obtain ⟨f, hf, hn, ht, hfr, hv⟩ := txCompressedData_ok h
  obtain ⟨f', hf', hn', ht', hfr', hv'⟩ := txCompressedData_ok h'
  have hd := congrArg decodeTxCompressedData (hv.symm.trans hv')
  rw [decode_compressedFields hn ht hfr, decode_compressedFields hn' ht' hfr'] at hd
  simp only [List.cons.injEq, and_true] at hd
  obtain ⟨hs, hfee, hnon, htok, hff, hto, hfrom, hc⟩ := hd
  exact ⟨(UInt16.toNat.inj hc).symm, (toNat_signByte_inj hs).symm, (UInt8.toNat.inj hfee).symm,
    (UInt64.toNat.inj hnon).symm, (UInt32.toNat.inj htok).symm,
    by rw [hf, hf', UInt16.toNat.inj hff], (UInt64.toNat.inj hto).symm, (UInt64.toNat.inj hfrom).symm⟩

/-- Two V2 encodings of the same value agree on every field they encode. -/
theorem compressedDataV2_inj {toBJJ' : BJJComp} {fee' : FeeSelector} {nonce' : Nonce}
    {tokenID' : TokenID} {amount' : Option ℤ} {toIdx' fromIdx' : Idx}
    (h : compressedDataV2 newFloat16 toBJJ fee nonce tokenID amount toIdx fromIdx = .ok v)
    (h' : compressedDataV2 newFloat16 toBJJ' fee' nonce' tokenID' amount' toIdx' fromIdx' = .ok v) :
    toBJJ'.sign = toBJJ.sign ∧ fee' = fee ∧ nonce' = nonce ∧ tokenID' = tokenID ∧
      newFloat16 (some (amount'.getD 0)) = newFloat16 (some (amount.getD 0)) ∧
      toIdx' = toIdx ∧ fromIdx' = fromIdx := by
  obtain ⟨f, hf, hn, ht, hfr, hv⟩ := compressedDataV2_ok h
  obtain ⟨f', hf', hn', ht', hfr', hv'⟩ := compressedDataV2_ok h'
  have hd := congrArg decodeTxCompressedDataV2 (hv.symm.trans hv')
  rw [decode_compressedFieldsV2 hn ht hfr, decode_compressedFieldsV2 hn' ht' hfr'] at hd
  simp only [List.cons.injEq, and_true] at hd
  obtain ⟨hs, hfee, hnon, htok, hff, hto, hfrom⟩ := hd
  exact ⟨(toNat_signByte_inj hs).symm, (UInt8.toNat.inj hfee).symm, (UInt64.toNat.inj hnon).symm,
    (UInt32.toNat.inj htok).symm, by rw [hf, hf', UInt16.toNat.inj hff],
    (UInt64.toNat.inj hto).symm, (UInt64.toNat.inj hfrom).symm⟩

end Inversion

/-- The hash's inputs read nothing but the chain ID and the signed fields. -/
theorem hashInputs_congr {tx tx' : PoolL2Tx} (h : signedFields newFloat16 tx' = signedFields newFloat16 tx)
    (chainID : UInt16) : hashInputs c newFloat16 tx' chainID = hashInputs c newFloat16 tx chainID := by
  simp only [signedFields, SignedFields.mk.injEq] at h
  obtain ⟨h1, h2, h3, h4, h5, h6, h7, h8, h9, h10, h11, h12, h13, h14, h15, h16⟩ := h
  have hrq : ∀ a : Option ℤ, (if a.isNone then some 0 else a) = some (a.getD 0) := fun a => by
    cases a <;> rfl
  simp only [hashInputs, txCompressedData, rqTxCompressedDataV2, compressedDataV2, hrq, h1, h2, h3,
    h4, h5, h6, h7, h8, h9, h10, h11, h12, h13, h14, h15, h16]

/-- **The signature covers exactly the signed fields and the chain.**  Once the hash's inputs
of `tx` under `chainID` encode, another transaction under another chain ID gives the same inputs
exactly when it is for the same chain and agrees with `tx` on every field `SignedFields` lists.
The fields it does not list (`TxID`, `Type`, `RqTxID`, `RqOffset`, `AtomicGroupID`,
`AbsoluteFee`, the annotations, and an amount beyond its `Float16`) are not covered. -/
theorem hashInputs_eq_iff {tx : PoolL2Tx} {chainID : UInt16} {m : List ℕ}
    (h : hashInputs c newFloat16 tx chainID = .ok m) (tx' : PoolL2Tx) (chainID' : UInt16) :
    hashInputs c newFloat16 tx' chainID' = .ok m ↔
      chainID' = chainID ∧ signedFields newFloat16 tx' = signedFields newFloat16 tx := by
  refine ⟨fun h' => ?_, fun ⟨hc, hs⟩ => by rw [hc, hashInputs_congr hs, h]⟩
  obtain ⟨v, vr, hv, hvr, rfl⟩ := hashInputs_eq_ok.1 h
  obtain ⟨v', vr', hv', hvr', hm⟩ := hashInputs_eq_ok.1 h'
  simp only [List.cons.injEq, and_true] at hm
  obtain ⟨rfl, heth, hy, rfl, hreth, hry⟩ := hm
  obtain ⟨hc, hs, hfee, hn, htok, hf, hto, hfrom⟩ := txCompressedData_inj hv hv'
  obtain ⟨hrs, hrfee, hrn, hrtok, hrf, hrto, hrfrom⟩ := compressedDataV2_inj hvr hvr'
  refine ⟨hc, ?_⟩
  simp only [signedFields, SignedFields.mk.injEq]
  exact ⟨BJJComp.eq_of_sign_y hs hy.symm, hfee, hn, htok, hf, hto, hfrom,
    ethAddrToBigInt_inj heth.symm, BJJComp.eq_of_sign_y hrs hry.symm, hrfee, hrn, hrtok, hrf, hrto,
    hrfrom, ethAddrToBigInt_inj hreth.symm⟩

/-- Whatever Poseidon computes, transactions that agree on the signed fields hash alike under a
chain ID. -/
theorem hashToSign_congr {ε : Type} (poseidon : List ℕ → Except ε ℕ) {tx tx' : PoolL2Tx}
    (h : signedFields newFloat16 tx' = signedFields newFloat16 tx) (chainID : UInt16) :
    hashToSign c newFloat16 poseidon tx' chainID = hashToSign c newFloat16 poseidon tx chainID := by
  rw [hashToSign, hashToSign, hashInputs_congr h]

/-- The transfer of `sampleTransfer` is signed for chain `0` over inputs that only transactions
for chain `0` with its signed fields share. -/
theorem sampleTransfer_signed :
    ∃ m, hashInputs sampleConsts (fun _ => .ok 1) sampleTransfer 0 = .ok m ∧
      ∀ tx' chainID', hashInputs sampleConsts (fun _ => .ok 1) tx' chainID' = .ok m ↔
        chainID' = 0 ∧ signedFields (fun _ => .ok 1) tx' = signedFields (fun _ => .ok 1) sampleTransfer :=
  ⟨_, rfl, hashInputs_eq_iff rfl⟩

end PoolL2Tx

end HermezNode
