import Mathlib.Algebra.GroupWithZero.Nat
import Mathlib.Algebra.Ring.Int.Defs
import Mathlib.Data.List.Basic

/-!
IEEE 754 binary64 by its bit patterns. Every finite value is a whole number of units
of 2^-1074, the smallest subnormal, so sums and quotients are computed exactly over
the naturals and rounded once, to nearest with ties to even.
-/

structure F64 where
  bits : UInt64
  deriving DecidableEq, Inhabited

namespace F64

/-- What a bit pattern stands for; a magnitude counts units of 2^-1074. -/
inductive Value where
  | finite (negative : Bool) (magnitude : Nat)
  | infinite (negative : Bool)
  | nan
  deriving DecidableEq

def decode (x : F64) : Value :=
  let raw := x.bits.toNat
  let negative : Bool := 2 ^ 63 ≤ raw
  let exponent := raw / 2 ^ 52 % 2 ^ 11
  let fraction := raw % 2 ^ 52
  if exponent = 2047 then
    if fraction = 0 then .infinite negative else .nan
  else if exponent = 0 then .finite negative fraction
  else .finite negative ((2 ^ 52 + fraction) * 2 ^ (exponent - 1))

def signBit (negative : Bool) : Nat := if negative then 2 ^ 63 else 0

def encode : Value → F64
  | .nan => ⟨UInt64.ofNat (2047 * 2 ^ 52 + 2 ^ 51)⟩
  | .infinite negative => ⟨UInt64.ofNat (signBit negative + 2047 * 2 ^ 52)⟩
  | .finite negative magnitude =>
      if magnitude < 2 ^ 52 then ⟨UInt64.ofNat (signBit negative + magnitude)⟩
      else
        let shift := magnitude.log2 - 52
        ⟨UInt64.ofNat
          (signBit negative + (shift + 1) * 2 ^ 52 + (magnitude / 2 ^ shift - 2 ^ 52))⟩

/-- The integer nearest to `num / den`, the even one of two. -/
def nearestEven (num den : Nat) : Nat :=
  let quotient := num / den
  let twice := 2 * (num % den)
  if twice < den then quotient
  else if den < twice then quotient + 1
  else if quotient % 2 = 0 then quotient else quotient + 1

def maxMagnitude : Nat := (2 ^ 53 - 1) * 2 ^ 2045

/-- The value nearest to `num / den` units, with 53 significant bits. -/
def round (negative : Bool) (num den : Nat) : Value :=
  let shift := (num / den).log2 + 1 - 53
  let magnitude := nearestEven num (den * 2 ^ shift) * 2 ^ shift
  if maxMagnitude < magnitude then .infinite negative else .finite negative magnitude

def signed (negative : Bool) (magnitude : Nat) : Int :=
  if negative then -(magnitude : Int) else magnitude

/-- A decimal literal `num / den`. -/
def ofRatio (num den : Nat) : F64 := encode (round false (num * 2 ^ 1074) den)

def zero : F64 := ofRatio 0 1

/-- `as f64` on an integer. -/
def ofInt (n : Int) : F64 := encode (round (n < 0) (n.natAbs * 2 ^ 1074) 1)

def isNan (x : F64) : Bool := x.decode = .nan

def isFinite (x : F64) : Bool :=
  match x.decode with
  | .finite _ _ => true
  | _ => false

def neg (x : F64) : F64 :=
  match x.decode with
  | .finite negative magnitude => encode (.finite (!negative) magnitude)
  | .infinite negative => encode (.infinite (!negative))
  | .nan => x

def abs (x : F64) : F64 :=
  match x.decode with
  | .finite _ magnitude => encode (.finite false magnitude)
  | .infinite _ => encode (.infinite false)
  | .nan => x

def add (x y : F64) : F64 :=
  match x.decode, y.decode with
  | .nan, _ | _, .nan => encode .nan
  | .infinite a, .infinite b => if a = b then x else encode .nan
  | .infinite _, _ => x
  | _, .infinite _ => y
  | .finite a m, .finite b n =>
      let sum := signed a m + signed b n
      if sum = 0 then encode (.finite (a && b) 0)
      else encode (round (sum < 0) sum.natAbs 1)

def sub (x y : F64) : F64 := add x (neg y)

def div (x y : F64) : F64 :=
  match x.decode, y.decode with
  | .nan, _ | _, .nan => encode .nan
  | .infinite _, .infinite _ => encode .nan
  | .infinite a, .finite b _ => encode (.infinite (xor a b))
  | .finite a _, .infinite b => encode (.finite (xor a b) 0)
  | .finite a m, .finite b n =>
      if n = 0 then
        if m = 0 then encode .nan else encode (.infinite (xor a b))
      else encode (round (xor a b) (m * 2 ^ 1074) n)

def lt (x y : F64) : Bool :=
  match x.decode, y.decode with
  | .nan, _ | _, .nan => false
  | .infinite a, .infinite b => a && !b
  | .infinite a, .finite _ _ => a
  | .finite _ _, .infinite b => !b
  | .finite a m, .finite b n => signed a m < signed b n

/-- The `==` of floats: the two zeros are equal and no NaN equals anything. -/
def eq (x y : F64) : Bool :=
  match x.decode, y.decode with
  | .nan, _ | _, .nan => false
  | .infinite a, .infinite b => a == b
  | .finite a m, .finite b n => signed a m == signed b n
  | _, _ => false

def le (x y : F64) : Bool := lt x y || eq x y

/-- `f64::max`, which ignores a NaN. -/
def max (x y : F64) : F64 :=
  if x.isNan then y
  else if y.isNan then x
  else if lt x y then y else x

/-- The integer whose order is `f64::total_cmp`. -/
def totalKey (x : F64) : Int :=
  let raw := x.bits.toNat
  if 2 ^ 63 ≤ raw then 2 ^ 63 - 1 - (raw : Int) else raw

def totalLe (x y : F64) : Prop := x.totalKey ≤ y.totalKey

instance : DecidableRel totalLe := fun x y => inferInstanceAs (Decidable (x.totalKey ≤ y.totalKey))

instance : Std.Total totalLe := ⟨fun x y => Int.le_total x.totalKey y.totalKey⟩

instance : IsTrans F64 totalLe := ⟨fun _ _ _ => Int.le_trans⟩

example : add (ofRatio 1 10) (ofRatio 2 10) = ⟨0x3FD3333333333334⟩ ∧
    div (ofInt 1) (ofInt 3) = ⟨0x3FD5555555555555⟩ ∧ ofInt (-2) = ⟨0xC000000000000000⟩ := by
  decide +kernel

end F64
