/-
# The functions of Python's `math` module

The controllers use exact arithmetic over an ordered field together with the
trigonometric functions of `math`.  `Trig` names those functions; over the reals
they are Mathlib's.  `Numeral` has the constants that the controllers write.
-/
import Mathlib.Analysis.SpecialFunctions.Complex.Arg
import Mathlib.Analysis.SpecialFunctions.Trigonometric.Arctan

/-! ## Numerals

A numeral of a field rests on a proof that it is at least two.  The ones that the
code writes have theirs by name, the same one in every module. -/

namespace Numeral

instance two : Nat.AtLeastTwo 2 := ⟨by decide⟩
instance three : Nat.AtLeastTwo 3 := ⟨by decide⟩
instance four : Nat.AtLeastTwo 4 := ⟨by decide⟩
instance five : Nat.AtLeastTwo 5 := ⟨by decide⟩
instance eight : Nat.AtLeastTwo 8 := ⟨by decide⟩
instance ten : Nat.AtLeastTwo 10 := ⟨by decide⟩
instance fifteen : Nat.AtLeastTwo 15 := ⟨by decide⟩
instance thirtyFive : Nat.AtLeastTwo 35 := ⟨by decide⟩
instance fortyFive : Nat.AtLeastTwo 45 := ⟨by decide⟩
instance sixtyFive : Nat.AtLeastTwo 65 := ⟨by decide⟩
instance seventyFive : Nat.AtLeastTwo 75 := ⟨by decide⟩
instance hundred : Nat.AtLeastTwo 100 := ⟨by decide⟩
instance hundredEighty : Nat.AtLeastTwo 180 := ⟨by decide⟩
instance thousand : Nat.AtLeastTwo 1000 := ⟨by decide⟩
instance thousandTwentyFour : Nat.AtLeastTwo 1024 := ⟨by decide⟩

end Numeral

/-! ## The functions -/

/-- The functions and the constant of Python's `math` module that the
repository uses on finite arguments. -/
class Trig (R : Type*) where
  pi : R
  sin : R → R
  cos : R → R
  atan : R → R
  /-- `atan2 y x`. -/
  atan2 : R → R → R
  hypot : R → R → R

namespace Trig

/-- `math` over the reals. -/
noncomputable instance : Trig ℝ where
  pi := Real.pi
  sin := Real.sin
  cos := Real.cos
  atan := Real.arctan
  atan2 y x := Complex.arg ⟨x, y⟩
  hypot x y := Real.sqrt (x ^ 2 + y ^ 2)

variable {R : Type*} [Field R] [LinearOrder R] [Trig R]

/-- `math.radians`. -/
def radians (degrees : R) : R := degrees * Trig.pi / 180

/-- `math.degrees`. -/
def degrees (radians : R) : R := radians * 180 / Trig.pi

/-- `math.copysign` on values without a signed zero. -/
def copysign (magnitude sign : R) : R := if sign < 0 then -|magnitude| else |magnitude|

end Trig
