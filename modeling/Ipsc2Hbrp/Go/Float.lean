/-
The numbers behind a `float64` bit pattern, and what the program's two uses of
a `float64` mean on them: the comparisons of `Validate` order the values, and
`%f` prints the value rounded half to even at six decimals.

As binary64 semantics that compare doubles as integers do, a finite value is a
whole number of units of `2 ^ -1074`, the smallest subnormal: `unitsOf` counts
them from the 63 bits below the sign, and the rational `value` only states
results.
-/
import Ipsc2Hbrp.Go.Fmt
import Mathlib.Algebra.Order.Field.Basic
import Mathlib.Algebra.Order.Field.Rat
import Mathlib.Order.Monotone.Basic
import Mathlib.Tactic.Linarith
import Mathlib.Tactic.Ring

namespace Ipsc2Hbrp.Go

namespace Float64

/-! ### Fields of the bit pattern -/

def exponent (x : Float64) : Nat := x.bits.toNat / 2 ^ 52 % 2 ^ 11

def fraction (x : Float64) : Nat := x.bits.toNat % 2 ^ 52

/-- Neither an infinity nor a NaN: the exponent bits are not all ones. -/
def isFinite (x : Float64) : Bool := x.exponent != 0x7FF

def mantissa (x : Float64) : Nat := if x.exponent = 0 then x.fraction else x.fraction + 2 ^ 52

/-- The mantissa counts units of `2 ^ (scale - 1075)`. -/
def scale (x : Float64) : Nat := if x.exponent = 0 then 1 else x.exponent

/-- A magnitude `m` (exponent and fraction bits) in units of `2 ^ -1074`; for
the infinities, a number above every finite one. -/
def unitsOf (m : Nat) : Nat :=
  if m / 2 ^ 52 = 0 then m % 2 ^ 52 else (m % 2 ^ 52 + 2 ^ 52) * 2 ^ (m / 2 ^ 52 - 1)

def scaled (x : Float64) : Int :=
  if x.negative then -(unitsOf x.magnitude : Int) else unitsOf x.magnitude

/-- The rational number a finite `float64` stands for. -/
def value (x : Float64) : ℚ := x.scaled / 2 ^ 1074

theorem magnitude_lt (x : Float64) : x.magnitude < 2 ^ 63 := Nat.mod_lt _ (by decide)

theorem exponent_eq (x : Float64) : x.exponent = x.magnitude / 2 ^ 52 := by
  have := x.bits.toNat_lt_size
  unfold exponent magnitude
  omega

theorem fraction_eq (x : Float64) : x.fraction = x.magnitude % 2 ^ 52 := by
  unfold fraction magnitude
  omega

theorem isFinite_iff (x : Float64) : x.isFinite = true ↔ x.magnitude < 0x7FF0000000000000 := by
  have := x.magnitude_lt
  simp only [isFinite, exponent_eq, bne_iff_ne, ne_eq]
  omega

theorem isNaN_false_of_isFinite {x : Float64} (finite : x.isFinite = true) : x.isNaN = false := by
  have small := (isFinite_iff x).mp finite
  simp only [isNaN, decide_eq_false_iff_not, not_lt]
  omega

theorem unitsOf_magnitude (x : Float64) :
    unitsOf x.magnitude = x.mantissa * 2 ^ (x.scale - 1) := by
  simp only [unitsOf, mantissa, scale, exponent_eq, fraction_eq]
  split_ifs <;> simp

/-! ### The order of the values -/

/-- One step up the bit patterns is one step up the values: within a binade
one unit of the exponent, and across a binade boundary from `2 ^ 53 - 1`
units of `2 ^ (e - 1)` to `2 ^ 52` units of `2 ^ e`. -/
theorem unitsOf_lt_succ (m : Nat) : unitsOf m < unitsOf (m + 1) := by
  have power : 0 < 2 ^ (m / 2 ^ 52 - 1) := Nat.two_pow_pos _
  by_cases carry : m % 2 ^ 52 + 1 = 2 ^ 52
  · have nextExponent : (m + 1) / 2 ^ 52 = m / 2 ^ 52 + 1 := by omega
    have nextFraction : (m + 1) % 2 ^ 52 = 0 := by omega
    rw [unitsOf, unitsOf, nextExponent, nextFraction, if_neg (Nat.succ_ne_zero _),
      Nat.add_sub_cancel]
    split_ifs with subnormal
    · rw [subnormal]
      omega
    · have doubled : 2 ^ (m / 2 ^ 52) = 2 * 2 ^ (m / 2 ^ 52 - 1) := by
        rw [← Nat.pow_succ']
        congr 1
        omega
      rw [doubled]
      have : (m % 2 ^ 52 + 2 ^ 52) * 2 ^ (m / 2 ^ 52 - 1) < 2 ^ 53 * 2 ^ (m / 2 ^ 52 - 1) :=
        Nat.mul_lt_mul_of_pos_right (by omega) power
      omega
  · have sameExponent : (m + 1) / 2 ^ 52 = m / 2 ^ 52 := by omega
    have nextFraction : (m + 1) % 2 ^ 52 = m % 2 ^ 52 + 1 := by omega
    rw [unitsOf, unitsOf, sameExponent, nextFraction]
    split_ifs
    · omega
    · exact Nat.mul_lt_mul_of_pos_right (by omega) power

theorem unitsOf_strictMono : StrictMono unitsOf := strictMono_nat_of_lt_succ unitsOf_lt_succ

def signedUnits (k : Int) : Int := if k < 0 then -(unitsOf k.natAbs : Int) else unitsOf k.natAbs

theorem signedUnits_strictMono : StrictMono signedUnits := by
  intro a b below
  have grows {m n : Nat} (less : m < n) : (unitsOf m : Int) < unitsOf n :=
    Int.ofNat_lt.mpr (unitsOf_strictMono less)
  have zero : unitsOf 0 = 0 := rfl
  unfold signedUnits
  split_ifs with aNegative bNegative bNegative
  · have := grows (show b.natAbs < a.natAbs by omega)
    omega
  · have := grows (show 0 < a.natAbs by omega)
    omega
  · omega
  · exact grows (by omega)

theorem scaled_eq_signedUnits (x : Float64) : x.scaled = signedUnits x.orderKey := by
  unfold scaled signedUnits orderKey
  by_cases zero : x.magnitude = 0
  · simp [zero, unitsOf]
  · split_ifs <;> simp_all
    omega

theorem lt_iff_scaled_lt {x y : Float64} (xNumber : x.isNaN = false) (yNumber : y.isNaN = false) :
    x < y ↔ x.scaled < y.scaled := by
  show x.lt y = true ↔ _
  rw [scaled_eq_signedUnits, scaled_eq_signedUnits, signedUnits_strictMono.lt_iff_lt]
  simp only [lt, xNumber, yNumber, Bool.not_false, Bool.true_and, decide_eq_true_eq]

theorem value_lt_value_iff (x y : Float64) : x.value < y.value ↔ x.scaled < y.scaled := by
  rw [value, value, div_lt_div_iff_of_pos_right (by positivity), Int.cast_lt]

/-- Go's `<` on two non-NaN `float64`s is `<` on their values. -/
theorem lt_iff_value_lt {x y : Float64} (xNumber : x.isNaN = false) (yNumber : y.isNaN = false) :
    x < y ↔ x.value < y.value := by
  rw [lt_iff_scaled_lt xNumber yNumber, value_lt_value_iff]

theorem signedUnits_neg (k : Int) : signedUnits (-k) = -signedUnits k := by
  unfold signedUnits
  rw [Int.natAbs_neg]
  rcases lt_trichotomy k 0 with negative | rfl | positive
  · rw [if_neg (by omega), if_pos negative, neg_neg]
  · rfl
  · rw [if_pos (by omega), if_neg (by omega)]

theorem value_eq_neg {a b : Float64} (opposite : a.orderKey = -b.orderKey) : a.value = -b.value := by
  rw [value, value, scaled_eq_signedUnits, scaled_eq_signedUnits, opposite, signedUnits_neg,
    Int.cast_neg, neg_div]

theorem abs_value (x : Float64) : |x.value| = unitsOf x.magnitude / 2 ^ 1074 := by
  rw [value, abs_div, abs_of_pos (by positivity : (0 : ℚ) < 2 ^ 1074)]
  unfold scaled
  split_ifs <;> simp

theorem value_eq_sign (x : Float64) : x.value = if x.negative then -|x.value| else |x.value| := by
  rw [abs_value]
  unfold value scaled
  split_ifs <;> push_cast <;> ring

theorem abs_value_le_iff (x b : Float64) : |x.value| ≤ |b.value| ↔ x.magnitude ≤ b.magnitude := by
  rw [abs_value, abs_value, div_le_div_iff_of_pos_right (by positivity), Nat.cast_le,
    unitsOf_strictMono.le_iff_le]

/-- Neither `x < negB` nor `x > b`, where `negB` is `-b` on the order: `x` is a
NaN, or no further from zero than `b`. -/
theorem not_outside_iff {x b negB : Float64} (bNumber : b.isNaN = false)
    (negNumber : negB.isNaN = false) (bPositive : b.negative = false)
    (negKey : negB.orderKey = -b.orderKey) :
    ¬(x < negB ∨ x > b) ↔ x.isNaN = true ∨ x.magnitude ≤ b.magnitude := by
  cases xNaN : x.isNaN
  · have bValue : b.value = |b.value| := by
      rw [value_eq_sign b, bPositive, if_neg Bool.false_ne_true, abs_abs]
    rw [gt_iff_lt, lt_iff_value_lt xNaN negNumber, lt_iff_value_lt bNumber xNaN,
      value_eq_neg negKey, ← abs_value_le_iff, bValue, abs_le]
    simp only [not_or, not_lt, Bool.false_eq_true, false_or, abs_abs]
  · exact iff_of_true (not_or.mpr ⟨not_lt_of_isNaN_left xNaN, not_lt_of_isNaN_right xNaN⟩)
      (.inl rfl)

theorem not_outside_iff_value {x b negB : Float64} (bFinite : b.isFinite = true)
    (negNumber : negB.isNaN = false) (bPositive : b.negative = false)
    (negKey : negB.orderKey = -b.orderKey) :
    ¬(x < negB ∨ x > b) ↔ x.isNaN = true ∨ x.isFinite = true ∧ |x.value| ≤ |b.value| := by
  rw [not_outside_iff (isNaN_false_of_isFinite bFinite) negNumber bPositive negKey,
    abs_value_le_iff]
  have bSmall := (isFinite_iff b).mp bFinite
  have finiteOfLe (below : x.magnitude ≤ b.magnitude) : x.isFinite = true :=
    (isFinite_iff x).mpr (by omega)
  exact or_congr_right ⟨fun below => ⟨finiteOfLe below, below⟩, And.right⟩

/-! ### `%f` -/

/-- The digits `formatFloat` prints of a finite value: its magnitude in
millionths, rounded half to even. -/
def micros (x : Float64) : Nat :=
  if 1075 ≤ x.scale then x.mantissa * 2 ^ (x.scale - 1075) * 10 ^ 6
  else roundHalfEven (x.mantissa * 10 ^ 6) (2 ^ (1075 - x.scale))

theorem formatFloat_of_isFinite {x : Float64} (finite : x.isFinite = true) :
    formatFloat x = (if x.negative then utf8 "-" else []) ++ formatUint 10 1 (x.micros / 10 ^ 6) ++
      utf8 "." ++ formatUint 10 6 (x.micros % 10 ^ 6) := by
  have notInfinite : x.exponent ≠ 0x7FF := by simpa [isFinite] using finite
  unfold exponent at notInfinite
  unfold formatFloat
  dsimp only
  rw [if_neg notInfinite]
  rfl

theorem roundHalfEven_near (a : Nat) {b : Nat} (positive : 0 < b) :
    2 * a ≤ 2 * (roundHalfEven a b * b) + b ∧ 2 * (roundHalfEven a b * b) ≤ 2 * a + b := by
  have split := Nat.div_add_mod a b
  have remainder := Nat.mod_lt a positive
  rw [Nat.mul_comm] at split
  unfold roundHalfEven
  split_ifs
  · rw [Nat.add_mul, Nat.one_mul]
    omega
  · omega

/-- `%f`'s millionths are within half a millionth of the magnitude. -/
theorem micros_near (x : Float64) :
    2 * (unitsOf x.magnitude * 10 ^ 6) ≤ 2 * (x.micros * 2 ^ 1074) + 2 ^ 1074 ∧
      2 * (x.micros * 2 ^ 1074) ≤ 2 * (unitsOf x.magnitude * 10 ^ 6) + 2 ^ 1074 := by
  have scalePositive : 1 ≤ x.scale := by unfold scale; split_ifs <;> omega
  rw [unitsOf_magnitude]
  unfold micros
  split_ifs with large
  · have exact : x.mantissa * 2 ^ (x.scale - 1075) * 10 ^ 6 * 2 ^ 1074 =
        x.mantissa * 2 ^ (x.scale - 1) * 10 ^ 6 := by
      rw [show x.scale - 1 = x.scale - 1075 + 1074 by omega, Nat.pow_add]
      ring
    omega
  · obtain ⟨low, high⟩ :=
      roundHalfEven_near (x.mantissa * 10 ^ 6) (Nat.two_pow_pos (1075 - x.scale))
    have whole : 2 ^ (1075 - x.scale) * 2 ^ (x.scale - 1) = 2 ^ 1074 := by
      rw [← Nat.pow_add]
      congr 1
      omega
    have lowScaled := Nat.mul_le_mul_right (2 ^ (x.scale - 1)) low
    have highScaled := Nat.mul_le_mul_right (2 ^ (x.scale - 1)) high
    rw [← whole]
    constructor
    · calc 2 * (x.mantissa * 2 ^ (x.scale - 1) * 10 ^ 6)
          = 2 * (x.mantissa * 10 ^ 6) * 2 ^ (x.scale - 1) := by ring
        _ ≤ _ := lowScaled
        _ = _ := by ring
    · calc _ = 2 * (roundHalfEven (x.mantissa * 10 ^ 6) (2 ^ (1075 - x.scale)) *
              2 ^ (1075 - x.scale)) * 2 ^ (x.scale - 1) := by ring
        _ ≤ _ := highScaled
        _ = _ := by ring

theorem cast_unit : ((2 ^ 1074 : Nat) : ℚ) = 2 ^ 1074 :=
  (Nat.cast_pow 2 1074).trans (by rw [Nat.cast_ofNat])

theorem micros_le {x : Float64} {bound : Nat} (near : |x.value| ≤ bound) :
    x.micros ≤ bound * 10 ^ 6 := by
  have unitsBound : unitsOf x.magnitude ≤ bound * 2 ^ 1074 := by
    rw [abs_value, ← cast_unit, div_le_iff₀ (by positivity)] at near
    exact Nat.cast_le.mp (near.trans_eq (Nat.cast_mul _ _).symm)
  have scaledBound := Nat.mul_le_mul_right (10 ^ 6) unitsBound
  have rounded := (micros_near x).2
  by_contra over
  have overScaled := Nat.mul_le_mul_right (2 ^ 1074) (Nat.lt_of_not_le over)
  rw [Nat.succ_mul, Nat.mul_right_comm] at overScaled
  omega

theorem cut_near {micros units unit places : Nat} (positive : 0 < unit) (enough : 4 ≤ places)
    (most : places ≤ 6) (low : 2 * (units * 10 ^ 6) ≤ 2 * (micros * unit) + unit)
    (high : 2 * (micros * unit) ≤ 2 * (units * 10 ^ 6) + unit) :
    |((micros / 10 ^ 6 : Nat) : ℚ) + ((micros % 10 ^ 6 / 10 ^ (6 - places) : Nat) : ℚ) /
      10 ^ places - (units : ℚ) / unit| < 1 / 10 ^ 4 := by
  set cut := 10 ^ (6 - places) with cutDef
  set kept := micros % 10 ^ 6 / cut
  have cutPositive : 0 < cut := Nat.pos_pow_of_pos _ (by decide)
  have cutSmall : cut ≤ 10 ^ 2 := Nat.pow_le_pow_right (by decide) (by omega)
  have placesCut : (10 : ℚ) ^ places * cut = 10 ^ 6 := by
    rw [cutDef, Nat.cast_pow, Nat.cast_ofNat, ← pow_add]
    congr 1
    omega
  have unitPositive : (0 : ℚ) < unit := Nat.cast_pos.mpr positive
  set value := (units : ℚ) / unit
  have unitsEq : (units : ℚ) = value * unit := (div_mul_cancel₀ _ unitPositive.ne').symm
  have lower : 2 * 10 ^ 6 * value ≤ 2 * micros + 1 := by
    have cast : (2 * (units * 10 ^ 6) : ℚ) ≤ 2 * (micros * unit) + unit := by exact_mod_cast low
    rw [unitsEq] at cast
    exact le_of_mul_le_mul_right (by linarith only [cast]) unitPositive
  have upper : 2 * (micros : ℚ) ≤ 2 * 10 ^ 6 * value + 1 := by
    have cast : (2 * (micros * unit) : ℚ) ≤ 2 * (units * 10 ^ 6) + unit := by exact_mod_cast high
    rw [unitsEq] at cast
    exact le_of_mul_le_mul_right (by linarith only [cast]) unitPositive
  have wholeSplit : (micros : ℚ) = 10 ^ 6 * (micros / 10 ^ 6 : Nat) + (micros % 10 ^ 6 : Nat) := by
    exact_mod_cast (Nat.div_add_mod micros (10 ^ 6)).symm
  have cutSplit : ((micros % 10 ^ 6 : Nat) : ℚ) = cut * kept + (micros % 10 ^ 6 % cut : Nat) := by
    exact_mod_cast (Nat.div_add_mod (micros % 10 ^ 6) cut).symm
  have remainderSmall : ((micros % 10 ^ 6 % cut : Nat) : ℚ) + 1 ≤ cut := by
    exact_mod_cast Nat.mod_lt (micros % 10 ^ 6) cutPositive
  have remainderNonneg : (0 : ℚ) ≤ (micros % 10 ^ 6 % cut : Nat) := Nat.cast_nonneg _
  have cutSmallQ : (cut : ℚ) ≤ 100 := by exact_mod_cast cutSmall
  have shifted : (10 : ℚ) ^ 6 * ((kept : ℚ) / 10 ^ places) = cut * kept := by
    rw [← placesCut, mul_comm _ (cut : ℚ), mul_assoc, mul_div_cancel₀ _ (by positivity)]
  rw [abs_sub_lt_iff]
  generalize ((micros / 10 ^ 6 : Nat) : ℚ) = whole at wholeSplit ⊢
  generalize ((micros % 10 ^ 6 % cut : Nat) : ℚ) = rest at cutSplit remainderSmall remainderNonneg
  generalize (kept : ℚ) / 10 ^ places = fraction at shifted ⊢
  generalize (cut : ℚ) * kept = block at shifted cutSplit
  constructor
  · linarith only [upper, wholeSplit, cutSplit, remainderNonneg, shifted]
  · linarith only [lower, wholeSplit, cutSplit, remainderSmall, cutSmallQ, shifted]

/-- Cutting `%f`'s six decimals to `places`, at least four, stays within
`10 ^ -4` of the magnitude: the rounding costs half a millionth, the cut less
than `10 ^ (6 - places)` millionths. -/
theorem cut_micros_near (x : Float64) {places : Nat} (enough : 4 ≤ places) (most : places ≤ 6) :
    |((x.micros / 10 ^ 6 : Nat) : ℚ) + ((x.micros % 10 ^ 6 / 10 ^ (6 - places) : Nat) : ℚ) /
      10 ^ places - (|x.value|)| < 1 / 10 ^ 4 := by
  obtain ⟨low, high⟩ := micros_near x
  have near := @cut_near x.micros (unitsOf x.magnitude) (2 ^ 1074) places (by positivity) enough
    most low high
  rwa [cast_unit, ← abs_value] at near

end Float64

end Ipsc2Hbrp.Go
