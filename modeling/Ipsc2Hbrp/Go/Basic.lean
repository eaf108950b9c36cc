/-
Go's byte-level primitives as the bridge's packet and configuration code uses
them: strings and byte slices as byte lists, `make`, `copy`, the `byte(u)`
conversion of an unsigned integer, and `float64` as an IEEE 754 binary64 bit
pattern ordered as Go's `<` orders it.

A Go `uint` is a `Nat` here.  The code only shifts such values right, masks
them and narrows them with `byte(...)`, and it widens bytes with `uint(b) << k`
for `k ≤ 24`; none of these overflows 32 or 64 bits, so no wrap-around is lost.
-/
import Mathlib.Data.List.Basic
import Mathlib.Algebra.Group.Nat.Basic
import Mathlib.Data.String.Basic

namespace Ipsc2Hbrp.Go

/-- A Go `string` or `[]byte`: any byte sequence, UTF-8 or not. -/
abbrev Bytes := List UInt8

def utf8 (text : String) : Bytes := text.toUTF8.data.toList

def make (n : Nat) : Bytes := List.replicate n 0

/-- `copy(dst, src)`: the new contents of `dst` and the count it returns. -/
def copy (dst src : Bytes) : Bytes × Nat :=
  (src.take dst.length ++ dst.drop src.length, min dst.length src.length)

/-- `copy(dst[offset:], src)`, seen through `dst`. -/
def copyAt (dst : Bytes) (offset : Nat) (src : Bytes) : Bytes :=
  dst.take offset ++ (copy (dst.drop offset) src).1

def byte (u : Nat) : UInt8 := UInt8.ofNat u

/-! ### `copy` -/

@[simp] theorem make_length (n : Nat) : (make n).length = n := List.length_replicate n 0

@[simp] theorem copy_length (dst src : Bytes) : (copy dst src).1.length = dst.length := by
  simp only [copy, List.length_append, List.length_take, List.length_drop]
  omega

theorem copy_of_length_le {dst src : Bytes} (fits : src.length ≤ dst.length) :
    (copy dst src).1 = src ++ dst.drop src.length := by
  simp only [copy, List.take_of_length_le fits]

theorem copy_make {src : Bytes} {n : Nat} (exact : src.length = n) :
    (copy (make n) src).1 = src := by
  rw [copy_of_length_le (by simp [exact]), exact, make, List.drop_replicate, Nat.sub_self,
    List.replicate_zero, List.append_nil]

theorem copy_make_of_le {src : Bytes} {n : Nat} (fits : src.length ≤ n) :
    copy (make n) src = (src ++ make (n - src.length), src.length) := by
  rw [copy, make_length, List.take_of_length_le fits, make, List.drop_replicate,
    Nat.min_eq_right fits]
  rfl

/-- The buffer-assembly idiom of the send functions: after a prefix, a zeroed
tail with room for the source gets the source at its front. -/
theorem copyAt_make {pre src : Bytes} {n : Nat} (fits : src.length ≤ n) :
    copyAt (pre ++ make n) pre.length src = pre ++ src ++ make (n - src.length) := by
  rw [copyAt, List.take_left, List.drop_left, copy_make_of_le fits, List.append_assoc]

/-! ### Bytes and their numeric value -/

@[simp] theorem byte_toNat (u : Nat) : (byte u).toNat = u % 256 := BitVec.toNat_ofNat u 8

@[simp] theorem byte_toNat_self (b : UInt8) : byte b.toNat = b :=
  UInt8.toNat.inj (by simp [Nat.mod_eq_of_lt b.toNat_lt_size])

theorem byte_eq_iff (u : Nat) (b : UInt8) : byte u = b ↔ u % 256 = b.toNat :=
  ⟨fun same => by rw [← same, byte_toNat], fun low => UInt8.toNat.inj (by simpa using low)⟩

theorem toNat_lor (a b : UInt8) : (a ||| b).toNat = a.toNat ||| b.toNat :=
  BitVec.toNat_or ..

theorem toNat_shiftRight (a b : UInt8) : (a >>> b).toNat = a.toNat >>> (b.toNat % 8) := by
  show (a.toBitVec >>> (b % 8).toBitVec).toNat = _
  simp [UInt8.toNat, UInt8.mod_def]

theorem lor_eq_add_of_dvd {x y k : Nat} (aligned : 2 ^ k ∣ x) (small : y < 2 ^ k) :
    x ||| y = x + y := by
  obtain ⟨q, rfl⟩ := aligned
  exact (Nat.mul_add_lt_is_or small q).symm

theorem and_mask_shiftLeft (n j k : Nat) :
    n &&& ((2 ^ j - 1) <<< k) = ((n >>> k) % 2 ^ j) <<< k := by
  apply Nat.eq_of_testBit_eq
  intro i
  by_cases above : k ≤ i
  · have shifted : k + (i - k) = i := by omega
    simp [above, shifted, Bool.and_comm]
  · simp [above]

/-! ### `float64` -/

structure Float64 where
  bits : UInt64
  deriving DecidableEq, Repr

namespace Float64

def negative (x : Float64) : Bool := 2 ^ 63 ≤ x.bits.toNat

def magnitude (x : Float64) : Nat := x.bits.toNat % 2 ^ 63

def isNaN (x : Float64) : Bool := 0x7FF0000000000000 < x.magnitude

/-- The position of a non-NaN value on the extended real line, up to scale;
both zeros sit at `0`. -/
def orderKey (x : Float64) : Int := if x.negative then -(x.magnitude : Int) else x.magnitude

/-- Go's `x < y` on `float64`: false whenever either side is NaN. -/
def lt (x y : Float64) : Bool := !x.isNaN && !y.isNaN && decide (x.orderKey < y.orderKey)

instance : LT Float64 := ⟨fun x y => x.lt y = true⟩

instance (x y : Float64) : Decidable (x < y) := inferInstanceAs (Decidable (x.lt y = true))

theorem not_lt_of_isNaN_left {x y : Float64} (nan : x.isNaN = true) : ¬x < y := by
  show ¬x.lt y = true
  simp [lt, nan]

theorem not_lt_of_isNaN_right {x y : Float64} (nan : y.isNaN = true) : ¬x < y := by
  show ¬x.lt y = true
  simp [lt, nan]

/-- Go's unary minus flips the sign bit. -/
instance : Neg Float64 := ⟨fun x => ⟨x.bits ^^^ 0x8000000000000000⟩⟩

end Float64

end Ipsc2Hbrp.Go
