import Mathlib.Data.Rat.Floor
import Mathlib.Data.Rat.Sqrt

/-! The `f32` and `f64` operations of the pointer pipeline. The model is generic in them:
`Float32` and `Float` give the arithmetic of the program as compiled, the rationals give the
exact arithmetic in which its laws about sums are stated. -/
namespace LibinputRs

/-- The `f32` operations that motion, scrolling and acceleration use. -/
class F32 (F : Type) extends Add F, Sub F, Mul F, OfScientific F where
  /-- `as f32` on an `i32`. -/
  ofI32 : ℤ → F
  /-- `round() as i32`: nearest integer, halves away from zero, saturating. -/
  roundToI32 : F → ℤ

/-- The `f64` operations that gestures and queued events use. -/
class F64 (D : Type) extends Neg D, Add D, Sub D, Mul D, Div D, OfScientific D where
  /-- `as f64` on an `i32`. -/
  ofI32 : ℤ → D
  sqrt : D → D
  /-- `y.atan2(x).to_degrees()`. -/
  atan2Degrees : D → D → D
  /-- `x > 0.0`. -/
  isPositive : D → Bool
  /-- `x.clamp(lo, hi)`. -/
  clamp : D → D → D → D

/-- The conversions between the two widths. -/
class FloatCast (F D : Type) where
  toF64 : F → D
  toF32 : D → F

/-- Cut an integer to the range of `i32`, as a saturating cast does. -/
def saturateI32 (z : ℤ) : ℤ := max (-2^31) (min z (2^31 - 1))

/-- Nearest integer with halves away from zero. -/
def roundHalfAway (q : ℚ) : ℤ := if 0 ≤ q then ⌊q + 1/2⌋ else -⌊-q + 1/2⌋

instance : F32 ℚ where
  ofI32 z := z
  roundToI32 q := saturateI32 (roundHalfAway q)

/-- Rational `f64`: square roots are exact on squares, angles on the axes and diagonals. -/
instance : F64 ℚ where
  ofI32 z := z
  sqrt := Rat.sqrt
  atan2Degrees y x :=
    if y = 0 then (if 0 ≤ x then 0 else 180)
    else if x = 0 then (if 0 < y then 90 else -90)
    else if y = x then (if 0 < y then 45 else -135)
    else if y = -x then (if 0 < y then 135 else -45)
    else 0
  isPositive x := decide (0 < x)
  clamp x lo hi := max lo (min x hi)

instance : FloatCast ℚ ℚ where
  toF64 := id
  toF32 := id

instance : F32 Float32 where
  ofI32 := Float32.ofInt
  roundToI32 x := x.round.toInt32.toInt

instance : F64 Float where
  ofI32 := Float.ofInt
  sqrt := Float.sqrt
  atan2Degrees y x := Float.atan2 y x * (180.0 / 3.14159265358979323846)
  isPositive x := decide (0.0 < x)
  clamp x lo hi := if x < lo then lo else if hi < x then hi else x

instance : FloatCast Float32 Float where
  toF64 := Float32.toFloat
  toF32 := Float.toFloat32

end LibinputRs
