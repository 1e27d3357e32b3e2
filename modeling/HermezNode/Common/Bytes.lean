import Mathlib.Data.List.Basic
import Mathlib.Algebra.Order.Group.Nat
import Mathlib.Tactic.Ring
import Mathlib.Tactic.NormNum

/-!
# Big-endian byte strings

The encoders of `common` write fixed-width fields into a byte array and read the array back as
one integer.  Three primitives do all of it:

* `toBytesBE n v` — the `n` low-order bytes of `v`, most significant first
  (`binary.BigEndian.PutUintN` and the `Bytes()` methods of the identifier types);
* `setBytes b` — `new(big.Int).SetBytes(b)`, the unsigned big-endian value of `b`;
* `goCopy b lo hi src` — `copy(b[lo:hi], src)`.

`setBytes_toBytesBE` and `setBytes_append` reduce every encoding to arithmetic, and
`goCopy_zeros` says what a sequence of copies into a zeroed array leaves behind.
-/

namespace HermezNode

/-- The `n` low-order bytes of `v`, most significant first. -/
def toBytesBE : ℕ → ℕ → List UInt8
  | 0, _ => []
  | n + 1, v => toBytesBE n (v / 256) ++ [UInt8.ofNat (v % 256)]

/-- `new(big.Int).SetBytes(b)`: the unsigned big-endian value of `b`. -/
def setBytes (b : List UInt8) : ℕ := b.foldl (fun acc x => acc * 256 + x.toNat) 0

/-- `copy(b[lo:hi], src)`: the first `min (hi - lo) (length src)` bytes of `src` overwrite `b`
from position `lo` on. -/
def goCopy (b : List UInt8) (lo hi : ℕ) (src : List UInt8) : List UInt8 :=
  b.take lo ++ src.take (min (hi - lo) src.length) ++ b.drop (lo + min (hi - lo) src.length)

@[simp] theorem length_toBytesBE (n v : ℕ) : (toBytesBE n v).length = n := by
  induction n generalizing v with
  | zero => rfl
  | succ n ih => simp [toBytesBE, ih]

theorem setBytes_foldl (b : List UInt8) (a : ℕ) :
    b.foldl (fun acc x => acc * 256 + x.toNat) a = a * 256 ^ b.length + setBytes b := by
  induction b generalizing a with
  | nil => simp [setBytes]
  | cons x b ih =>
    have h0 : setBytes (x :: b) = x.toNat * 256 ^ b.length + setBytes b := by
      show (x :: b).foldl (fun acc x => acc * 256 + x.toNat) 0 = _
      rw [List.foldl_cons, ih]; ring
    rw [List.foldl_cons, ih, h0, List.length_cons, pow_succ]
    ring

@[simp] theorem setBytes_nil : setBytes [] = 0 := rfl

theorem setBytes_append (a b : List UInt8) :
    setBytes (a ++ b) = setBytes a * 256 ^ b.length + setBytes b := by
  rw [setBytes, List.foldl_append, setBytes_foldl]
  rfl

@[simp] theorem setBytes_singleton (x : UInt8) : setBytes [x] = x.toNat := by
  simp [setBytes]

theorem setBytes_lt (b : List UInt8) : setBytes b < 256 ^ b.length := by
  induction b using List.reverseRecOn with
  | nil => simp
  | append_singleton b x ih =>
    rw [setBytes_append, setBytes_singleton, List.length_append, List.length_singleton, pow_one,
      pow_succ]
    have hx : x.toNat < 256 := x.toNat_lt_size
    generalize 256 ^ b.length = P at *
    omega

/-- Reading back `n` written bytes gives the value modulo `256 ^ n`. -/
@[simp] theorem setBytes_toBytesBE (n v : ℕ) : setBytes (toBytesBE n v) = v % 256 ^ n := by
  induction n generalizing v with
  | zero => simp [toBytesBE, Nat.mod_one]
  | succ n ih =>
    rw [toBytesBE, setBytes_append, ih, setBytes_singleton,
      UInt8.toNat_ofNat_of_lt (Nat.mod_lt v (by norm_num)), List.length_singleton, pow_one,
      pow_succ', Nat.mod_mul]
    ring

theorem setBytes_toBytesBE_of_lt {n v : ℕ} (h : v < 256 ^ n) : setBytes (toBytesBE n v) = v := by
  rw [setBytes_toBytesBE, Nat.mod_eq_of_lt h]

theorem toBytesBE_inj {n v w : ℕ} (hv : v < 256 ^ n) (hw : w < 256 ^ n)
    (h : toBytesBE n v = toBytesBE n w) : v = w := by
  have := congrArg setBytes h
  rwa [setBytes_toBytesBE, setBytes_toBytesBE, Nat.mod_eq_of_lt hv, Nat.mod_eq_of_lt hw] at this

/-- Writing back the bytes an integer was read from. -/
theorem toBytesBE_setBytes (b : List UInt8) : toBytesBE b.length (setBytes b) = b := by
  induction b using List.reverseRecOn with
  | nil => rfl
  | append_singleton b x ih =>
    have hx : x.toNat < 256 := x.toNat_lt_size
    have hdiv : (setBytes b * 256 + x.toNat) / 256 = setBytes b := by omega
    have hmod : (setBytes b * 256 + x.toNat) % 256 = x.toNat := by omega
    rw [List.length_append, List.length_singleton, toBytesBE, setBytes_append, setBytes_singleton,
      List.length_singleton, pow_one, hdiv, hmod, ih]
    exact congrArg (fun y => b ++ [y]) (UInt8.toNat.inj (UInt8.toNat_ofNat_of_lt hx))

/-- Cutting a byte string into consecutive fields of the given widths. -/
def splitBytes : List ℕ → List UInt8 → List (List UInt8)
  | [], _ => []
  | w :: ws, b => b.take w :: splitBytes ws (b.drop w)

theorem splitBytes_flatten (fs : List (List UInt8)) :
    splitBytes (fs.map List.length) fs.flatten = fs := by
  induction fs with
  | nil => rfl
  | cons f fs ih => simp [splitBytes, List.take_left', List.drop_left', ih]

/-! ### Writing into a zeroed array -/

/-- Copying `src` right after the written prefix `w` of a zeroed tail. -/
theorem goCopy_zeros {w src : List UInt8} {m lo hi : ℕ} (hlo : w.length = lo)
    (hhi : lo + src.length = hi) :
    goCopy (w ++ List.replicate m 0) lo hi src = (w ++ src) ++ List.replicate (m - src.length) 0 := by
  subst hlo hhi
  simp [goCopy, List.drop_append_eq_append_drop, List.take_append_eq_append_take,
    List.drop_replicate]

/-- `b[i] = x` right after the written prefix `w` of a zeroed tail. -/
theorem set_zeros {w : List UInt8} {x : UInt8} {m lo : ℕ} (hlo : w.length = lo) (hm : 0 < m) :
    (w ++ List.replicate m 0).set lo x = (w ++ [x]) ++ List.replicate (m - 1) 0 := by
  subst hlo
  obtain ⟨m, rfl⟩ := Nat.exists_eq_add_of_lt hm
  simp [List.set_append_right, List.replicate_succ]

end HermezNode
