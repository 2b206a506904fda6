import Screencast.Number.Decimal

/-!
# Integers and reals together

A quantity given by a user is an integer of any size or a binary number, and the two behave
differently: integers are multiplied exactly, and only their quotient is rounded.
`ArithmeticError` lists the four ways in which a conversion between the two can fail.
-/

namespace Screencast

/-- A quantity as it was written: without a fraction, or as a binary number. -/
inductive Number where
  | int (value : Int)
  | real (value : Binary64)
  deriving DecidableEq, Repr, Inhabited

/-- A conversion between integers and binary numbers that has no result. -/
inductive ArithmeticError where
  /-- An integer above the range of binary numbers meets a binary number. -/
  | integerTooLarge
  /-- The quotient of two integers is above the range of binary numbers. -/
  | quotientTooLarge
  /-- An infinity is to become an integer. -/
  | infinityToInteger
  /-- The value that is no number is to become an integer. -/
  | nanToInteger
  deriving DecidableEq, Repr

namespace ArithmeticError

def message : ArithmeticError → String
  | .integerTooLarge => "int too large to convert to float"
  | .quotientTooLarge => "integer division result too large for a float"
  | .infinityToInteger => "cannot convert float infinity to integer"
  | .nanToInteger => "cannot convert float NaN to integer"

/-- The kind of error named when no message is shown. -/
def label : ArithmeticError → String
  | .nanToInteger => "ValueError"
  | _ => "OverflowError"

end ArithmeticError

namespace Binary64

/-- Applies a rule for finite numbers; the other values have no integer. -/
def toInteger (rule : Bool → Nat → Int → Int) : Binary64 → Except ArithmeticError Int
  | .finite negative m e => .ok (rule negative m e)
  | .infinite _ => .error .infinityToInteger
  | .nan => .error .nanToInteger

def floor : Binary64 → Except ArithmeticError Int := toInteger floorFinite

def round : Binary64 → Except ArithmeticError Int := toInteger roundFinite

def truncate : Binary64 → Except ArithmeticError Int := toInteger truncateFinite

end Binary64

namespace Number

/-- The binary number nearest to a quantity. -/
def toReal : Number → Except ArithmeticError Binary64
  | .real x => .ok x
  | .int n =>
    let x := Binary64.ofInt n
    if x.isInfinite then .error .integerTooLarge else .ok x

/-- The product: exact for two integers, rounded otherwise. -/
def mul : Number → Number → Except ArithmeticError Number
  | .int a, .int b => .ok (.int (a * b))
  | a, b => do return .real ((← a.toReal).mul (← b.toReal))

/-- The binary number nearest to `num / den`, for a denominator that is not zero. -/
def quotient (num : Int) (den : Int) : Except ArithmeticError Binary64 :=
  let x := Binary64.ofRatio (decide (num < 0) != decide (den < 0)) num.natAbs den.natAbs
  if x.isInfinite then .error .quotientTooLarge else .ok x

/-- The quotient, rounded once, for a denominator that is not zero. -/
def div : Number → Number → Except ArithmeticError Binary64
  | .int a, .int b => quotient a b
  | a, b => do return (← a.toReal).div (← b.toReal)

/-- Strictly below zero. -/
def isNegative : Number → Bool
  | .int n => n < 0
  | .real x => x.isNegative

/-- Strictly above zero. -/
def isPositive : Number → Bool
  | .int n => 0 < n
  | .real x => x.isPositive

def isNan : Number → Bool
  | .int _ => false
  | .real x => x.isNan

/-- The integer part. -/
def truncate : Number → Except ArithmeticError Int
  | .int n => .ok n
  | .real x => x.truncate

/-- The least number of steps of the given size whose sum is not below the quantity; none reaches
an infinity, nor the value that is no number. -/
def stepsToReach (step : Nat) : Number → Option Nat
  | .int n => some (ceilQuotient n.toNat step)
  | .real (.finite negative m e) =>
    let (num, den) := Binary64.magnitude m e
    some (if negative then 0 else ceilQuotient num (den * step))
  | .real (.infinite negative) => if negative then some 0 else none
  | .real .nan => none

/-- The text of a quantity in a style for binary numbers. -/
def text (style : RealStyle) : Number → List Char
  | .int n => integerText n
  | .real x => style.text x

end Number

end Screencast
