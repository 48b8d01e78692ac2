/-
The proofs behind numerals, and the limits of `float`.

A numeral of `Fin n` needs `n ≠ 0`, and a numeral of a field that it is at least 2.  Each
proof has a name here, so that the terms of a definition with numerals stay small.
-/
import Mathlib.Algebra.Field.Defs
import Mathlib.Algebra.GroupWithZero.Nat
import Mathlib.Data.Nat.Cast.Defs

instance neZeroOne : NeZero 1 := ⟨Nat.succ_ne_zero 0⟩

instance neZeroTwo : NeZero 2 := ⟨Nat.succ_ne_zero 1⟩

instance neZeroThree : NeZero 3 := ⟨Nat.succ_ne_zero 2⟩

instance neZeroFour : NeZero 4 := ⟨Nat.succ_ne_zero 3⟩

instance neZeroFive : NeZero 5 := ⟨Nat.succ_ne_zero 4⟩

instance neZeroTwelve : NeZero 12 := ⟨Nat.succ_ne_zero 11⟩

instance neZeroSixteen : NeZero 16 := ⟨Nat.succ_ne_zero 15⟩

instance neZeroNineteen : NeZero 19 := ⟨Nat.succ_ne_zero 18⟩

instance neZeroTwentyOne : NeZero 21 := ⟨Nat.succ_ne_zero 20⟩

instance neZeroTwentyFive : NeZero 25 := ⟨Nat.succ_ne_zero 24⟩

instance neZeroTwentySix : NeZero 26 := ⟨Nat.succ_ne_zero 25⟩

instance neZeroFortySix : NeZero 46 := ⟨Nat.succ_ne_zero 45⟩

instance atLeastTwoTwo : Nat.AtLeastTwo 2 := inferInstance

instance atLeastTwoThree : Nat.AtLeastTwo 3 := inferInstance

instance atLeastTwoFour : Nat.AtLeastTwo 4 := inferInstance

instance atLeastTwoFive : Nat.AtLeastTwo 5 := inferInstance

instance atLeastTwoSix : Nat.AtLeastTwo 6 := inferInstance

instance atLeastTwoSeven : Nat.AtLeastTwo 7 := inferInstance

instance atLeastTwoEight : Nat.AtLeastTwo 8 := inferInstance

instance atLeastTwoNine : Nat.AtLeastTwo 9 := inferInstance

instance atLeastTwoTen : Nat.AtLeastTwo 10 := inferInstance

instance atLeastTwoThirteen : Nat.AtLeastTwo 13 := inferInstance

instance atLeastTwoFifteen : Nat.AtLeastTwo 15 := inferInstance

instance atLeastTwoTwenty : Nat.AtLeastTwo 20 := inferInstance

instance atLeastTwoTwentyFive : Nat.AtLeastTwo 25 := inferInstance

instance atLeastTwoTwentySix : Nat.AtLeastTwo 26 := inferInstance

instance atLeastTwoThirty : Nat.AtLeastTwo 30 := inferInstance

instance atLeastTwoThirtyOne : Nat.AtLeastTwo 31 := inferInstance

instance atLeastTwoThirtyFive : Nat.AtLeastTwo 35 := inferInstance

instance atLeastTwoFifty : Nat.AtLeastTwo 50 := inferInstance

instance atLeastTwoSixty : Nat.AtLeastTwo 60 := inferInstance

instance atLeastTwoEighty : Nat.AtLeastTwo 80 := inferInstance

instance atLeastTwoHundred : Nat.AtLeastTwo 100 := inferInstance

instance atLeastTwoHundredTen : Nat.AtLeastTwo 110 := inferInstance

instance atLeastTwoHundredTwenty : Nat.AtLeastTwo 120 := inferInstance

instance atLeastTwoHundredThirty : Nat.AtLeastTwo 130 := inferInstance

instance atLeastTwoHundredForty : Nat.AtLeastTwo 140 := inferInstance

instance atLeastTwoHundredFortyFive : Nat.AtLeastTwo 145 := inferInstance

instance atLeastTwoHundredFifty : Nat.AtLeastTwo 150 := inferInstance

instance atLeastTwoHundredFiftyFive : Nat.AtLeastTwo 155 := inferInstance

instance atLeastTwoHundredEighty : Nat.AtLeastTwo 180 := inferInstance

instance atLeastTwoTwoHundred : Nat.AtLeastTwo 200 := inferInstance

instance atLeastTwoTwoHundredForty : Nat.AtLeastTwo 240 := inferInstance

instance atLeastTwoTwoHundredFifty : Nat.AtLeastTwo 250 := inferInstance

instance atLeastTwoThreeHundredFourteen : Nat.AtLeastTwo 314 := inferInstance

instance atLeastTwoThreeHundredTwenty : Nat.AtLeastTwo 320 := inferInstance

instance atLeastTwoFourHundredEighty : Nat.AtLeastTwo 480 := inferInstance

instance atLeastTwoSixHundredForty : Nat.AtLeastTwo 640 := inferInstance

instance atLeastTwoThousand : Nat.AtLeastTwo 1000 := inferInstance

instance atLeastTwoTenThousand : Nat.AtLeastTwo 10000 := inferInstance

variable {K : Type*} [Field K]

/-- `FLT_MAX` -/
def fltMax : K := (2 - 1 / 2 ^ 23) * 2 ^ 127

/-- `FLT_MIN`: the smallest positive number, not the lowest. -/
def fltMin : K := 1 / 2 ^ 126
