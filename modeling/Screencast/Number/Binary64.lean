import Screencast.Number.Rounding

/-!
# Binary floating point with 53 bits

`Binary64` is a number of the 64-bit binary format taken as what it means: a signed significand
times a power of two, an infinity, or no number at all.  Each operation is the exact one followed
by a single rounding, `Binary64.ofRatio`, so that statements about it are statements about natural
numbers.

Finite values are kept in one form: the significand has 53 bits, or the exponent is the least one.
-/

namespace Screencast

/-- A number of the 64-bit binary format; `finite negative m e` stands for `± m · 2 ^ e`. -/
inductive Binary64 where
  | finite (negative : Bool) (significand : Nat) (exponent : Int)
  | infinite (negative : Bool)
  | nan
  deriving DecidableEq, Repr, Inhabited

namespace Binary64

/-- Number of bits after the leading bit of a full significand. -/
def fractionBits : Nat := 52

/-- The exponent of the smallest positive number. -/
def leastExponent : Int := -1074

/-- The exponent of the largest finite numbers. -/
def greatestExponent : Int := 971

/-- The zero of either sign. -/
def zero (negative : Bool) : Binary64 := .finite negative 0 leastExponent

/-- The finite number with this significand and exponent, or an infinity when the exponent is out
of range; a significand that rounding carried to 54 bits is halved. -/
def pack (negative : Bool) (significand : Nat) (exponent : Int) : Binary64 :=
  let carried := significand = Nat.pow 2 (fractionBits + 1)
  let exponent := if carried then exponent + 1 else exponent
  if greatestExponent < exponent then .infinite negative
  else .finite negative (if carried then Nat.pow 2 fractionBits else significand) exponent

/-- The position of the leading bit of `num / den`. -/
def leadingBit (num den : Nat) : Int :=
  let guess : Int := (num.log2 : Int) - den.log2
  if scaleUp den guess ≤ scaleUp num (-guess) then guess else guess - 1

/-- The number nearest to `± num / den`; a tie goes to the even significand, and what exceeds the
range goes to an infinity. -/
def ofRatio (negative : Bool) (num den : Nat) : Binary64 :=
  if num = 0 then zero negative
  else
    let exponent := max (leadingBit num den - fractionBits) leastExponent
    pack negative (roundQuotient (scaleUp num (-exponent)) (scaleUp den exponent)) exponent

/-- The number nearest to `± significand · 2 ^ exponent`. -/
def ofScaled (negative : Bool) (significand : Nat) (exponent : Int) : Binary64 :=
  ofRatio negative (scaleUp significand exponent) (scaleUp 1 (-exponent))

/-- The number nearest to an integer. -/
def ofInt (n : Int) : Binary64 := ofRatio (n < 0) n.natAbs 1

def isNan : Binary64 → Bool
  | .nan => true
  | _ => false

def isInfinite : Binary64 → Bool
  | .infinite _ => true
  | _ => false

def isZero : Binary64 → Bool
  | .finite _ m _ => m = 0
  | _ => false

/-- Strictly below zero; neither a zero nor the value that is no number is. -/
def isNegative : Binary64 → Bool
  | .finite negative m _ => negative && m ≠ 0
  | .infinite negative => negative
  | .nan => false

/-- Strictly above zero; neither a zero nor the value that is no number is. -/
def isPositive : Binary64 → Bool
  | .finite negative m _ => !negative && m ≠ 0
  | .infinite negative => !negative
  | .nan => false

/-- The sign a result of multiplication or division carries. -/
def isMinus : Binary64 → Bool
  | .finite negative _ _ => negative
  | .infinite negative => negative
  | .nan => false

/-- The magnitude `m · 2 ^ e` as a quotient of natural numbers. -/
def magnitude (significand : Nat) (exponent : Int) : Nat × Nat :=
  (scaleUp significand exponent, scaleUp 1 (-exponent))

def mul : Binary64 → Binary64 → Binary64
  | .nan, _ => .nan
  | _, .nan => .nan
  | .finite s m e, .finite t n f => ofScaled (s != t) (m * n) (e + f)
  | x, y => if x.isZero || y.isZero then .nan else .infinite (x.isMinus != y.isMinus)

def div : Binary64 → Binary64 → Binary64
  | .nan, _ => .nan
  | _, .nan => .nan
  | .infinite _, .infinite _ => .nan
  | .infinite s, y => .infinite (s != y.isMinus)
  | .finite s _ _, .infinite t => zero (s != t)
  | .finite s m e, .finite t n f =>
    if n = 0 then (if m = 0 then .nan else .infinite (s != t))
    else ofRatio (s != t) (scaleUp m (e - f)) (scaleUp n (f - e))

/-- The signed integer `± m · 2 ^ (e - base)`, for a base that is not above `e`. -/
private def aligned (negative : Bool) (significand : Nat) (shift : Int) : Int :=
  let n : Int := scaleUp significand shift
  if negative then -n else n

def add : Binary64 → Binary64 → Binary64
  | .nan, _ => .nan
  | _, .nan => .nan
  | .infinite s, .infinite t => if s = t then .infinite s else .nan
  | .infinite s, .finite _ _ _ => .infinite s
  | .finite _ _ _, .infinite t => .infinite t
  | .finite s m e, .finite t n f =>
    let base := min e f
    let sum := aligned s m (e - base) + aligned t n (f - base)
    if sum = 0 then zero (s && t) else ofScaled (sum < 0) sum.natAbs base

def neg : Binary64 → Binary64
  | .finite s m e => .finite (!s) m e
  | .infinite s => .infinite (!s)
  | .nan => .nan

def sub (x y : Binary64) : Binary64 := x.add y.neg

/-- Strictly smaller: the difference of two numbers is rounded to zero only if they are equal. -/
def lt (x y : Binary64) : Bool := (x.sub y).isNegative

/-- The integer a finite magnitude gives under a rule that maps a quotient to an integer. -/
private def signed (negative : Bool) (n : Nat) : Int :=
  if negative then -(n : Int) else n

/-- The greatest integer not above a finite number. -/
def floorFinite (negative : Bool) (significand : Nat) (exponent : Int) : Int :=
  let (num, den) := magnitude significand exponent
  signed negative (if negative then ceilQuotient num den else num / den)

/-- A finite number without its fraction. -/
def truncateFinite (negative : Bool) (significand : Nat) (exponent : Int) : Int :=
  let (num, den) := magnitude significand exponent
  signed negative (num / den)

/-- The integer nearest to a finite number; a tie goes to the even one. -/
def roundFinite (negative : Bool) (significand : Nat) (exponent : Int) : Int :=
  let (num, den) := magnitude significand exponent
  signed negative (roundQuotient num den)

/-- The number nearest to `± digits · 10 ^ exponent`.  Exponents that no number of the format can
have are settled by the count of digits, so that no power of ten beyond the range is formed. -/
def ofDecimal (negative : Bool) (digits : Nat) (exponent : Int) : Binary64 :=
  if digits = 0 then zero negative
  else
    let count : Int := (Nat.toDigits 10 digits).length
    if 310 < count + exponent then .infinite negative
    else if count + exponent < -330 then zero negative
    else ofRatio negative (digits * Nat.pow 10 exponent.toNat) (Nat.pow 10 (-exponent).toNat)

/-- A number rounded to a count of decimal places: the exact value is rounded, a tie to even, and
the binary number nearest to that decimal is taken. -/
def roundPlaces (places : Nat) : Binary64 → Binary64
  | .finite negative m e =>
    let (num, den) := magnitude m e
    ofDecimal negative (roundQuotient (num * Nat.pow 10 places) den) (-(places : Int))
  | x => x

end Binary64

end Screencast
