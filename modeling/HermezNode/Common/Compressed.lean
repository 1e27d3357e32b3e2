import HermezNode.Common.Types

/-!
# The compressed-data encodings

`TxCompressedData` packs a pool transaction into 31 bytes — sign of the destination key, fee,
nonce, token, amount as a `Float16`, destination and source index, chain ID and the signature
constant — and reads them as one big-endian integer; `TxCompressedDataV2` and
`RqTxCompressedDataV2` pack the first seven fields, of the transaction and of the requested one,
into 25 bytes.  The signed hash and the circuit read these exact bits.

`NewFloat16` is not in the source, so the encoders take it as an argument `newFloat16`.

* `compressedDataV2_eq`, `txCompressedData_eq` : the byte array the code writes is the
  concatenation of the fields (the `copy`s land at consecutive offsets and never overlap);
* `txCompressedData_spec` : the three values as sums of shifted fields, their bounds
  (`2^241`, `2^193`), the relation `TxCompressedData = V2 · 2^48 + chainID · 2^32 + constant`,
  and the decoding of every field.
-/

namespace HermezNode

/-- The seven fields of the V2 layouts, as byte strings, in order. -/
def compressedFieldsV2 (sign fee : UInt8) (nonce : Nonce) (tokenID : TokenID)
    (amountFloat16 : Float16) (toIdx fromIdx : Idx) : List (List UInt8) :=
  [[sign], [fee], toBytesBE 5 nonce.toNat, tokenID.bytes, amountFloat16.bytes,
    toBytesBE 6 toIdx.toNat, toBytesBE 6 fromIdx.toNat]

/-- Reading the seven fields of a 25-byte value back. -/
def decodeTxCompressedDataV2 (n : ℕ) : List ℕ :=
  (splitBytes [1, 1, 5, 4, 2, 6, 6] (toBytesBE 25 n)).map setBytes

/-- Reading the nine fields of a 31-byte value back. -/
def decodeTxCompressedData (n : ℕ) : List ℕ :=
  (splitBytes [1, 1, 5, 4, 2, 6, 6, 2, 4] (toBytesBE 31 n)).map setBytes

namespace PoolL2Tx

variable (c : Consts) (newFloat16 : Option ℤ → Except CommonError Float16)

/-- `TxCompressedData`. -/
def txCompressedData (tx : PoolL2Tx) (chainID : UInt16) : Except CommonError ℕ := do
  let amountFloat16 ← newFloat16 tx.amount
  let b := List.replicate 31 (0 : UInt8)
  let toBJJSign : UInt8 := if tx.toBJJ.sign then 1 else 0
  let b := b.set 0 toBJJSign
  let b := b.set 1 tx.fee
  let nonceBytes ← tx.nonce.bytes
  let b := goCopy b 2 7 nonceBytes
  let b := goCopy b 7 11 tx.tokenID.bytes
  let b := goCopy b 11 13 amountFloat16.bytes
  let toIdxBytes ← tx.toIdx.bytes
  let b := goCopy b 13 19 toIdxBytes
  let fromIdxBytes ← tx.fromIdx.bytes
  let b := goCopy b 19 25 fromIdxBytes
  let b := goCopy b 25 27 (toBytesBE 2 chainID.toNat)
  let b := goCopy b 27 31 c.signatureConstantBytes.toList
  pure (setBytes b)

/-- The body shared by `TxCompressedDataV2` and `RqTxCompressedDataV2`, over the seven fields it
packs.  (The source also writes the zero amount back into the transaction; no modelled caller
reads it.) -/
def compressedDataV2 (toBJJ : BJJComp) (fee : FeeSelector) (nonce : Nonce) (tokenID : TokenID)
    (amount : Option ℤ) (toIdx fromIdx : Idx) : Except CommonError ℕ := do
  let amount := if amount.isNone then some 0 else amount
  let amountFloat16 ← newFloat16 amount
  let b := List.replicate 25 (0 : UInt8)
  let toBJJSign : UInt8 := if toBJJ ≠ emptyBJJComp ∧ toBJJ.sign then 1 else 0
  let b := b.set 0 toBJJSign
  let b := b.set 1 fee
  let nonceBytes ← nonce.bytes
  let b := goCopy b 2 7 nonceBytes
  let b := goCopy b 7 11 tokenID.bytes
  let b := goCopy b 11 13 amountFloat16.bytes
  let toIdxBytes ← toIdx.bytes
  let b := goCopy b 13 19 toIdxBytes
  let fromIdxBytes ← fromIdx.bytes
  let b := goCopy b 19 25 fromIdxBytes
  pure (setBytes b)

/-- `TxCompressedDataV2`. -/
def txCompressedDataV2 (tx : PoolL2Tx) : Except CommonError ℕ :=
  compressedDataV2 newFloat16 tx.toBJJ tx.fee tx.nonce tx.tokenID tx.amount tx.toIdx tx.fromIdx

/-- `RqTxCompressedDataV2`. -/
def rqTxCompressedDataV2 (tx : PoolL2Tx) : Except CommonError ℕ :=
  compressedDataV2 newFloat16 tx.rqToBJJ tx.rqFee tx.rqNonce tx.rqTokenID tx.rqAmount tx.rqToIdx
    tx.rqFromIdx

/-! ### The arrays the encoders write -/

/-- The 25 bytes the V2 encoders write: the fields one after the other. -/
theorem bufferV2 (s fee : UInt8) (n t f i j : List UInt8) (hn : n.length = 5) (ht : t.length = 4)
    (hf : f.length = 2) (hi : i.length = 6) (hj : j.length = 6) :
    goCopy (goCopy (goCopy (goCopy (goCopy (((List.replicate 25 0).set 0 s).set 1 fee) 2 7 n)
      7 11 t) 11 13 f) 13 19 i) 19 25 j = [s, fee] ++ n ++ t ++ f ++ i ++ j := by
  rw [← List.nil_append (List.replicate 25 0)]
  simp (disch := simp [*]) only [set_zeros, goCopy_zeros]
  simp [hn, ht, hf, hi, hj]

/-- The 31 bytes `TxCompressedData` writes: the V2 fields, the chain ID and the constant. -/
theorem buffer (s fee : UInt8) (n t f i j k l : List UInt8) (hn : n.length = 5)
    (ht : t.length = 4) (hf : f.length = 2) (hi : i.length = 6) (hj : j.length = 6)
    (hk : k.length = 2) (hl : l.length = 4) :
    goCopy (goCopy (goCopy (goCopy (goCopy (goCopy (goCopy (((List.replicate 31 0).set 0 s).set 1
      fee) 2 7 n) 7 11 t) 11 13 f) 13 19 i) 19 25 j) 25 27 k) 27 31 l =
      [s, fee] ++ n ++ t ++ f ++ i ++ j ++ k ++ l := by
  rw [← List.nil_append (List.replicate 31 0)]
  simp (disch := simp [*]) only [set_zeros, goCopy_zeros]
  simp [hn, ht, hf, hi, hj, hk, hl]

variable {newFloat16}

theorem toNat_signByte (b : Bool) : (if b then (1 : UInt8) else 0).toNat = b.toNat := by
  cases b <;> rfl

theorem compressedDataV2_eq {toBJJ : BJJComp} {fee : FeeSelector} {nonce : Nonce}
    {tokenID : TokenID} {amount : Option ℤ} {toIdx fromIdx : Idx} {f : Float16}
    (hn : nonce.toNat < 2 ^ 40) (ht : toIdx.toNat < 2 ^ 48) (hfr : fromIdx.toNat < 2 ^ 48)
    (hf : newFloat16 (some (amount.getD 0)) = .ok f) :
    compressedDataV2 newFloat16 toBJJ fee nonce tokenID amount toIdx fromIdx =
      .ok (setBytes (compressedFieldsV2 (if toBJJ.sign then 1 else 0) fee nonce tokenID f toIdx
        fromIdx).flatten) := by
  have ha : (if amount.isNone then some 0 else amount) = some (amount.getD 0) := by
    cases amount <;> rfl
  have hs : (if toBJJ ≠ emptyBJJComp ∧ toBJJ.sign then (1 : UInt8) else 0) =
      if toBJJ.sign then 1 else 0 := by
    by_cases h : toBJJ = emptyBJJComp
    · subst h; rfl
    · simp [h]
  simp only [compressedDataV2, ha, hf, hs, Nonce.bytes_of_lt hn, Idx.bytes_of_lt ht,
    Idx.bytes_of_lt hfr, bind, Except.bind, pure, Except.pure]
  rw [bufferV2 _ _ _ _ _ _ _ (length_toBytesBE _ _) (TokenID.length_bytes _)
    (Float16.length_bytes _) (length_toBytesBE _ _) (length_toBytesBE _ _)]
  simp [compressedFieldsV2]

theorem txCompressedData_eq {tx : PoolL2Tx} {chainID : UInt16} {f : Float16}
    (hn : tx.nonce.toNat < 2 ^ 40) (ht : tx.toIdx.toNat < 2 ^ 48) (hfr : tx.fromIdx.toNat < 2 ^ 48)
    (hf : newFloat16 tx.amount = .ok f) :
    txCompressedData c newFloat16 tx chainID =
      .ok (setBytes ((compressedFieldsV2 (if tx.toBJJ.sign then 1 else 0) tx.fee tx.nonce tx.tokenID f
        tx.toIdx tx.fromIdx).flatten ++ toBytesBE 2 chainID.toNat ++
        c.signatureConstantBytes.toList)) := by
  simp only [txCompressedData, hf, Nonce.bytes_of_lt hn, Idx.bytes_of_lt ht, Idx.bytes_of_lt hfr,
    bind, Except.bind, pure, Except.pure]
  rw [buffer _ _ _ _ _ _ _ _ _ (length_toBytesBE _ _) (TokenID.length_bytes _)
    (Float16.length_bytes _) (length_toBytesBE _ _) (length_toBytesBE _ _) (length_toBytesBE _ _)
    c.signatureConstantBytes.toList_length]
  simp [compressedFieldsV2]

/-! ### Values, bounds and decoding -/

section Fields

variable {s fee : UInt8} {nonce : Nonce} {tokenID : TokenID} {f : Float16} {toIdx fromIdx : Idx}
  (hn : nonce.toNat < 2 ^ 40) (ht : toIdx.toNat < 2 ^ 48) (hfr : fromIdx.toNat < 2 ^ 48)
include hn ht hfr

/-- Every field's bytes read back as the field. -/
theorem map_setBytes_compressedFieldsV2 :
    (compressedFieldsV2 s fee nonce tokenID f toIdx fromIdx).map setBytes =
      [s.toNat, fee.toNat, nonce.toNat, tokenID.toNat, f.toNat, toIdx.toNat, fromIdx.toNat] := by
  have hn' : nonce.toNat < 256 ^ 5 := lt_of_lt_of_eq hn (by norm_num)
  have ht' : toIdx.toNat < 256 ^ 6 := lt_of_lt_of_eq ht (by norm_num)
  have hfr' : fromIdx.toNat < 256 ^ 6 := lt_of_lt_of_eq hfr (by norm_num)
  have htk : tokenID.toNat < 256 ^ 4 := tokenID.toNat_lt_size
  have hf : f.toNat < 256 ^ 2 := f.toNat_lt_size
  simp [compressedFieldsV2, TokenID.bytes, Float16.bytes, setBytes_toBytesBE_of_lt hn',
    setBytes_toBytesBE_of_lt ht', setBytes_toBytesBE_of_lt hfr', setBytes_toBytesBE_of_lt htk,
    setBytes_toBytesBE_of_lt hf]

theorem setBytes_compressedFieldsV2 :
    setBytes (compressedFieldsV2 s fee nonce tokenID f toIdx fromIdx).flatten =
      s.toNat * 2 ^ 192 + fee.toNat * 2 ^ 184 + nonce.toNat * 2 ^ 144 + tokenID.toNat * 2 ^ 112 +
        f.toNat * 2 ^ 96 + toIdx.toNat * 2 ^ 48 + fromIdx.toNat := by
  have h : (compressedFieldsV2 s fee nonce tokenID f toIdx fromIdx).map setBytes = _ :=
    map_setBytes_compressedFieldsV2 hn ht hfr
  simp only [compressedFieldsV2, List.map_cons, List.map_nil, List.cons.injEq] at h
  obtain ⟨h1, h2, h3, h4, h5, h6, h7, -⟩ := h
  simp only [compressedFieldsV2, List.flatten_cons, List.flatten_nil, List.append_nil,
    setBytes_append, List.length_append, List.length_singleton, length_toBytesBE, TokenID.length_bytes,
    Float16.length_bytes, h1, h2, h3, h4, h5, h6, h7]
  ring

theorem decode_compressedFieldsV2 :
    decodeTxCompressedDataV2 (setBytes (compressedFieldsV2 s fee nonce tokenID f toIdx fromIdx).flatten) =
      [s.toNat, fee.toNat, nonce.toNat, tokenID.toNat, f.toNat, toIdx.toNat, fromIdx.toNat] := by
  have hl : (compressedFieldsV2 s fee nonce tokenID f toIdx fromIdx).flatten.length = 25 := by
    simp [compressedFieldsV2]
  have hw : [1, 1, 5, 4, 2, 6, 6] = (compressedFieldsV2 s fee nonce tokenID f toIdx fromIdx).map
      List.length := by simp [compressedFieldsV2]
  rw [decodeTxCompressedDataV2, ← hl, toBytesBE_setBytes, hw, splitBytes_flatten,
    map_setBytes_compressedFieldsV2 hn ht hfr]

theorem decode_compressedFields (chainID : UInt16) (sc : ByteArr 4) :
    decodeTxCompressedData (setBytes ((compressedFieldsV2 s fee nonce tokenID f toIdx fromIdx).flatten ++
      toBytesBE 2 chainID.toNat ++ sc.toList)) =
      [s.toNat, fee.toNat, nonce.toNat, tokenID.toNat, f.toNat, toIdx.toNat, fromIdx.toNat,
        chainID.toNat, setBytes sc.toList] := by
  have he : (compressedFieldsV2 s fee nonce tokenID f toIdx fromIdx).flatten ++
      toBytesBE 2 chainID.toNat ++ sc.toList =
      (compressedFieldsV2 s fee nonce tokenID f toIdx fromIdx ++
        [toBytesBE 2 chainID.toNat, sc.toList]).flatten := by simp
  have hl : (compressedFieldsV2 s fee nonce tokenID f toIdx fromIdx ++
      [toBytesBE 2 chainID.toNat, sc.toList]).flatten.length = 31 := by simp [compressedFieldsV2]
  have hw : [1, 1, 5, 4, 2, 6, 6, 2, 4] = (compressedFieldsV2 s fee nonce tokenID f toIdx fromIdx ++
      [toBytesBE 2 chainID.toNat, sc.toList]).map List.length := by simp [compressedFieldsV2]
  rw [he, decodeTxCompressedData, ← hl, toBytesBE_setBytes, hw, splitBytes_flatten, List.map_append,
    map_setBytes_compressedFieldsV2 hn ht hfr]
  have hc : chainID.toNat < 256 ^ 2 := chainID.toNat_lt_size
  simp [setBytes_toBytesBE_of_lt hc]

end Fields

/-- The V2 layout, for the fields of the transaction and for the requested ones alike. -/
theorem compressedDataV2_spec {toBJJ : BJJComp} {fee : FeeSelector} {nonce : Nonce}
    {tokenID : TokenID} {amount : Option ℤ} {toIdx fromIdx : Idx} {f : Float16}
    (hn : nonce.toNat < 2 ^ 40) (ht : toIdx.toNat < 2 ^ 48) (hfr : fromIdx.toNat < 2 ^ 48)
    (hf : newFloat16 (some (amount.getD 0)) = .ok f) :
    ∃ v, compressedDataV2 newFloat16 toBJJ fee nonce tokenID amount toIdx fromIdx = .ok v ∧
      v = toBJJ.sign.toNat * 2 ^ 192 + fee.toNat * 2 ^ 184 + nonce.toNat * 2 ^ 144 +
        tokenID.toNat * 2 ^ 112 + f.toNat * 2 ^ 96 + toIdx.toNat * 2 ^ 48 + fromIdx.toNat ∧
      v < 2 ^ 193 ∧
      decodeTxCompressedDataV2 v = [toBJJ.sign.toNat, fee.toNat, nonce.toNat, tokenID.toNat,
        f.toNat, toIdx.toNat, fromIdx.toNat] := by
  refine ⟨_, compressedDataV2_eq hn ht hfr hf, ?_, ?_, ?_⟩
  · rw [setBytes_compressedFieldsV2 hn ht hfr, toNat_signByte]
  · rw [setBytes_compressedFieldsV2 hn ht hfr, toNat_signByte]
    have h1 : fee.toNat < 2 ^ 8 := fee.toNat_lt_size
    have h2 : tokenID.toNat < 2 ^ 32 := tokenID.toNat_lt_size
    have h3 : f.toNat < 2 ^ 16 := f.toNat_lt_size
    have h4 : toBJJ.sign.toNat ≤ 1 := Bool.toNat_le _
    simp only [Nat.reducePow] at *
    omega
  · rw [decode_compressedFieldsV2 hn ht hfr, toNat_signByte]

variable (newFloat16)

/-- **The compressed encodings.**  For a transaction whose nonce and indices fit their widths
and whose amount `NewFloat16` represents as `f`, `TxCompressedData` and `TxCompressedDataV2`
succeed with the sums of shifted fields, the first is the second shifted past the chain ID and
the signature constant, both fit their widths and decode back to their fields; and
`RqTxCompressedDataV2` is the V2 formula over the requested fields, whenever those fit. -/
theorem txCompressedData_spec (tx : PoolL2Tx) (chainID : UInt16) (a : ℤ) (f : Float16)
    (hn : tx.nonce.toNat < 2 ^ 40) (hfr : tx.fromIdx.toNat < 2 ^ 48)
    (ht : tx.toIdx.toNat < 2 ^ 48) (ha : tx.amount = some a) (hf : newFloat16 (some a) = .ok f) :
    ∃ v v2, txCompressedData c newFloat16 tx chainID = .ok v ∧
      txCompressedDataV2 newFloat16 tx = .ok v2 ∧
      v = tx.toBJJ.sign.toNat * 2 ^ 240 + tx.fee.toNat * 2 ^ 232 + tx.nonce.toNat * 2 ^ 192 +
        tx.tokenID.toNat * 2 ^ 160 + f.toNat * 2 ^ 144 + tx.toIdx.toNat * 2 ^ 96 +
        tx.fromIdx.toNat * 2 ^ 48 + chainID.toNat * 2 ^ 32 + setBytes c.signatureConstantBytes.toList ∧
      v2 = tx.toBJJ.sign.toNat * 2 ^ 192 + tx.fee.toNat * 2 ^ 184 + tx.nonce.toNat * 2 ^ 144 +
        tx.tokenID.toNat * 2 ^ 112 + f.toNat * 2 ^ 96 + tx.toIdx.toNat * 2 ^ 48 + tx.fromIdx.toNat ∧
      v = v2 * 2 ^ 48 + chainID.toNat * 2 ^ 32 + setBytes c.signatureConstantBytes.toList ∧
      v < 2 ^ 241 ∧ v2 < 2 ^ 193 ∧
      decodeTxCompressedData v = [tx.toBJJ.sign.toNat, tx.fee.toNat, tx.nonce.toNat,
        tx.tokenID.toNat, f.toNat, tx.toIdx.toNat, tx.fromIdx.toNat, chainID.toNat,
        setBytes c.signatureConstantBytes.toList] ∧
      decodeTxCompressedDataV2 v2 = [tx.toBJJ.sign.toNat, tx.fee.toNat, tx.nonce.toNat,
        tx.tokenID.toNat, f.toNat, tx.toIdx.toNat, tx.fromIdx.toNat] ∧
      ∀ f' : Float16, tx.rqNonce.toNat < 2 ^ 40 → tx.rqFromIdx.toNat < 2 ^ 48 →
        tx.rqToIdx.toNat < 2 ^ 48 → newFloat16 (some (tx.rqAmount.getD 0)) = .ok f' →
        ∃ vr, rqTxCompressedDataV2 newFloat16 tx = .ok vr ∧
          vr = tx.rqToBJJ.sign.toNat * 2 ^ 192 + tx.rqFee.toNat * 2 ^ 184 +
            tx.rqNonce.toNat * 2 ^ 144 + tx.rqTokenID.toNat * 2 ^ 112 + f'.toNat * 2 ^ 96 +
            tx.rqToIdx.toNat * 2 ^ 48 + tx.rqFromIdx.toNat ∧
          vr < 2 ^ 193 ∧
          decodeTxCompressedDataV2 vr = [tx.rqToBJJ.sign.toNat, tx.rqFee.toNat, tx.rqNonce.toNat,
            tx.rqTokenID.toNat, f'.toNat, tx.rqToIdx.toNat, tx.rqFromIdx.toNat] := by
  have hfa : newFloat16 tx.amount = .ok f := ha ▸ hf
  have hfa' : newFloat16 (some (tx.amount.getD 0)) = .ok f := by rw [ha]; exact hf
  obtain ⟨v2, h2, hv2, hb2, hd2⟩ := compressedDataV2_spec hn ht hfr hfa'
  have hF : setBytes (compressedFieldsV2 (if tx.toBJJ.sign then 1 else 0) tx.fee tx.nonce
      tx.tokenID f tx.toIdx tx.fromIdx).flatten = v2 := by
    rw [setBytes_compressedFieldsV2 hn ht hfr, toNat_signByte, hv2]
  have hc : chainID.toNat < 256 ^ 2 := chainID.toNat_lt_size
  have hsc : setBytes c.signatureConstantBytes.toList < 2 ^ 32 :=
    lt_of_lt_of_eq (setBytes_lt _) (by simp)
  have hv : setBytes ((compressedFieldsV2 (if tx.toBJJ.sign then 1 else 0) tx.fee tx.nonce
      tx.tokenID f tx.toIdx tx.fromIdx).flatten ++ toBytesBE 2 chainID.toNat ++
      c.signatureConstantBytes.toList) =
      v2 * 2 ^ 48 + chainID.toNat * 2 ^ 32 + setBytes c.signatureConstantBytes.toList := by
    rw [setBytes_append, setBytes_append, hF, setBytes_toBytesBE_of_lt hc, length_toBytesBE,
      c.signatureConstantBytes.toList_length]
    ring
  refine ⟨_, v2, txCompressedData_eq c hn ht hfr hfa, h2, ?_, hv2, hv, ?_, hb2, ?_, hd2,
    fun f' h1 h3 h4 h5 => compressedDataV2_spec h1 h4 h3 h5⟩
  · rw [hv, hv2]; ring
  · rw [hv]
    have hc' : chainID.toNat < 2 ^ 16 := chainID.toNat_lt_size
    simp only [Nat.reducePow] at *
    omega
  · rw [decode_compressedFields hn ht hfr, toNat_signByte]

/-- A transfer from account `256` to account `257`. -/
def sampleTransfer : PoolL2Tx :=
  { PoolL2Tx.zero with fromIdx := 256, toIdx := 257, amount := some 1, nonce := 3 }

theorem sampleTransfer_compressed :
    sampleTransfer.nonce.toNat < 2 ^ 40 ∧ sampleTransfer.fromIdx.toNat < 2 ^ 48 ∧
      sampleTransfer.toIdx.toNat < 2 ^ 48 ∧ sampleTransfer.amount = some 1 ∧
      ∃ v v2, txCompressedData sampleConsts (fun _ => .ok 1) sampleTransfer 0 = .ok v ∧
        txCompressedDataV2 (fun _ => .ok 1) sampleTransfer = .ok v2 ∧
        v = v2 * 2 ^ 48 + setBytes sampleConsts.signatureConstantBytes.toList ∧ v2 < 2 ^ 193 := by
  refine ⟨by decide, by decide, by decide, rfl, ?_⟩
  obtain ⟨v, v2, h, h2, -, -, hv, -, hb, -⟩ :=
    txCompressedData_spec sampleConsts (fun _ => .ok 1) sampleTransfer 0 1 1 (by decide) (by decide) (by decide)
      rfl rfl
  exact ⟨v, v2, h, h2, by simpa using hv, hb⟩

end PoolL2Tx

end HermezNode
