import HermezNode.Common.Bytes
import Mathlib.Data.Vector.Defs
import Mathlib.Data.Rat.Defs

/-!
# The data model of pool transactions

`PoolL2Tx` is the pool transaction of `common/pooll2tx.go` together with the fields that the
selector reads from the same struct (`RqTxID`, `RqOffset`, `AtomicGroupID`, `Info`,
`ErrorCode`, `ErrorType`).  Identifier types keep their Go widths (`Idx` and `Nonce` are
`uint64`, `TokenID` is `uint32`, `FeeSelector` is `uint8`); `*big.Int` amounts are `Option ℤ`
(`none` is `nil`); the float `AbsoluteFee` is a rational, as the selector only compares and
averages it.

Part of `common` is not in the source: the byte encodings of the identifiers, the empty and
`FF` addresses, the type names, and three constants.  The first are modelled from the spec (the
widths and the big-endian layout of §6); the constants the spec does not fix are the fields of
`Consts`, so every result holds whatever their values.
-/

namespace HermezNode

/-- `[n]byte`. -/
abbrev ByteArr (n : ℕ) := Mathlib.Vector UInt8 n

/-- The zero value of `[n]byte`. -/
def ByteArr.zero (n : ℕ) : ByteArr n := Mathlib.Vector.replicate n 0

/-- `common.Idx`: an account index, 48 bits used. -/
abbrev Idx := UInt64
/-- `common.Nonce`: 40 bits used. -/
abbrev Nonce := UInt64
/-- `common.TokenID`. -/
abbrev TokenID := UInt32
/-- `common.FeeSelector`. -/
abbrev FeeSelector := UInt8
/-- `common.Float16`, the wire form of an amount. -/
abbrev Float16 := UInt16
/-- `common.TxID`. -/
abbrev TxID := ByteArr 12
/-- `common.AtomicGroupID`. -/
abbrev AtomicGroupID := ByteArr 32
/-- `ethCommon.Address`. -/
abbrev EthAddr := ByteArr 20
/-- `babyjub.PublicKeyComp`. -/
abbrev BJJComp := ByteArr 32
/-- `common.TxType`, a string. -/
abbrev TxType := String

/-- `EmptyBJJComp`: 32 zero bytes. -/
def emptyBJJComp : BJJComp := ByteArr.zero 32

/-- Modelled from the spec: `EmptyTxID` (common/tx.go is not in the source), the zero `TxID`. -/
def emptyTxID : TxID := ByteArr.zero 12

/-- Modelled from the spec: `EmptyAtomicGroupID`, the zero `AtomicGroupID`. -/
def emptyAtomicGroupID : AtomicGroupID := ByteArr.zero 32

/-- Modelled from the spec: `EmptyAddr`, the zero address. -/
def emptyAddr : EthAddr := ByteArr.zero 20

/-- Modelled from the spec: `FFAddr`, the address of twenty `0xFF` bytes. -/
def ffAddr : EthAddr := Mathlib.Vector.replicate 20 0xFF

/-- Modelled from the spec: the L2 transaction types (common/tx.go is not in the source). -/
def txTypeTransfer : TxType := "Transfer"
/-- Modelled from the spec: `TxTypeExit`. -/
def txTypeExit : TxType := "Exit"
/-- Modelled from the spec: `TxTypeTransferToEthAddr`. -/
def txTypeTransferToEthAddr : TxType := "TransferToEthAddr"
/-- Modelled from the spec: `TxTypeTransferToBJJ`. -/
def txTypeTransferToBJJ : TxType := "TransferToBJJ"

/-- The constants of `common` that the source uses and the spec does not fix.  User accounts
start at `idxUserThreshold`, above the reserved indices `0` and `1` (spec §3). -/
structure Consts where
  idxUserThreshold : Idx
  one_lt_idxUserThreshold : 1 < idxUserThreshold
  txIDPrefixL2Tx : UInt8
  signatureConstantBytes : ByteArr 4

/-- A choice of the constants, for the concrete runs that witness hypotheses. -/
def sampleConsts : Consts :=
  ⟨256, by decide, 2, ByteArr.zero 4⟩

theorem uint64_le_iff {a b : UInt64} : a ≤ b ↔ a.toNat ≤ b.toNat := Iff.rfl

theorem uint64_lt_iff {a b : UInt64} : a < b ↔ a.toNat < b.toNat := Iff.rfl

theorem uint64_eq_iff {a b : UInt64} : a = b ↔ a.toNat = b.toNat :=
  ⟨congrArg _, UInt64.toNat.inj⟩

/-- Errors raised by `common`, one constructor per error site, with the values the message
prints. -/
inductive CommonError
  | idxOverflow
  | nonceOverflow
  /-- An amount `NewFloat16` cannot represent. -/
  | float16
  | malformedTransaction
  /-- `"L2Tx.Type: %s, should be: %s"`, printed with the computed and the supplied type. -/
  | typeMismatch (computed supplied : TxType)
  /-- `"PoolL2Tx.TxID: %s, should be: %s"`, printed with the computed and the supplied ID. -/
  | txIDMismatch (computed supplied : TxID)
  deriving DecidableEq

/-- Modelled from the spec: `Idx.Bytes` (common/idx.go is not in the source).  An index has 48
bits: a larger value is an error, otherwise its six big-endian bytes. -/
def Idx.bytes (idx : Idx) : Except CommonError (List UInt8) :=
  if 2 ^ 48 ≤ idx.toNat then .error .idxOverflow else .ok (toBytesBE 6 idx.toNat)

/-- Modelled from the spec: `Nonce.Bytes`.  A nonce has 40 bits: a larger value is an error,
otherwise its five big-endian bytes. -/
def Nonce.bytes (n : Nonce) : Except CommonError (List UInt8) :=
  if 2 ^ 40 ≤ n.toNat then .error .nonceOverflow else .ok (toBytesBE 5 n.toNat)

theorem Idx.bytes_of_lt {idx : Idx} (h : idx.toNat < 2 ^ 48) :
    idx.bytes = .ok (toBytesBE 6 idx.toNat) := if_neg (Nat.not_le.2 h)

theorem Idx.bytes_of_le {idx : Idx} (h : 2 ^ 48 ≤ idx.toNat) : idx.bytes = .error .idxOverflow :=
  if_pos h

theorem Nonce.bytes_of_lt {n : Nonce} (h : n.toNat < 2 ^ 40) :
    n.bytes = .ok (toBytesBE 5 n.toNat) := if_neg (Nat.not_le.2 h)

theorem Nonce.bytes_of_le {n : Nonce} (h : 2 ^ 40 ≤ n.toNat) : n.bytes = .error .nonceOverflow :=
  if_pos h

/-- Modelled from the spec: `TokenID.Bytes`, the four big-endian bytes. -/
def TokenID.bytes (t : TokenID) : List UInt8 := toBytesBE 4 t.toNat

/-- Modelled from the spec: `Float16.Bytes`, the two big-endian bytes. -/
def Float16.bytes (f : Float16) : List UInt8 := toBytesBE 2 f.toNat

@[simp] theorem TokenID.length_bytes (t : TokenID) : t.bytes.length = 4 := length_toBytesBE _ _

@[simp] theorem Float16.length_bytes (f : Float16) : f.bytes.length = 2 := length_toBytesBE _ _

/-- The sign of a compressed point, as `babyjub.UnpackSignY` reads it: bit 7 of the last byte. -/
def BJJComp.sign (pk : BJJComp) : Bool := decide (128 ≤ (pk.get 31).toNat)

/-- `common.PoolL2Tx`. -/
structure PoolL2Tx where
  txID : TxID
  fromIdx : Idx
  toIdx : Idx
  toEthAddr : EthAddr
  toBJJ : BJJComp
  tokenID : TokenID
  amount : Option ℤ
  fee : FeeSelector
  nonce : Nonce
  rqFromIdx : Idx
  rqToIdx : Idx
  rqToEthAddr : EthAddr
  rqToBJJ : BJJComp
  rqTokenID : TokenID
  rqAmount : Option ℤ
  rqFee : FeeSelector
  rqNonce : Nonce
  absoluteFee : ℚ
  type : TxType
  rqTxID : TxID
  rqOffset : UInt8
  atomicGroupID : AtomicGroupID
  info : String
  errorCode : ℤ
  errorType : String
  deriving DecidableEq

/-- `common.Account`, with the fields the pool API and the selector read. -/
structure Account where
  tokenID : TokenID
  nonce : Nonce
  balance : ℤ
  bjj : BJJComp

namespace PoolL2Tx

/-- The zero value `common.PoolL2Tx{}`. -/
def zero : PoolL2Tx :=
  ⟨ByteArr.zero 12, 0, 0, emptyAddr, emptyBJJComp, 0, none, 0, 0, 0, 0, emptyAddr, emptyBJJComp, 0,
    none, 0, 0, 0, "", emptyTxID, 0, emptyAtomicGroupID, "", 0, ""⟩

/-- The tx belongs to an atomic group. -/
def isAtomic (tx : PoolL2Tx) : Bool := tx.atomicGroupID != emptyAtomicGroupID

/-- The tx without the selector's annotations `Info`, `ErrorCode` and `ErrorType`. -/
def erase (tx : PoolL2Tx) : PoolL2Tx := { tx with info := "", errorCode := 0, errorType := "" }

@[simp] theorem atomicGroupID_erase (tx : PoolL2Tx) : tx.erase.atomicGroupID = tx.atomicGroupID :=
  rfl

@[simp] theorem isAtomic_erase (tx : PoolL2Tx) : tx.erase.isAtomic = tx.isAtomic := rfl

end PoolL2Tx

end HermezNode
