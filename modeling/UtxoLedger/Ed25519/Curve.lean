import UtxoLedger.Bytes

/-!
# The Edwards curve over the integers modulo 2^255 - 19

Points `(x, y)` with `-x² + y² = 1 + d x² y²`, kept in projective form with
the product of the coordinates beside them. A point is written as the 255
bits of `y` and the parity of `x`.
-/

namespace UtxoLedger.Ed25519

/-- The prime of the field. -/
def prime : Nat := Nat.pow 2 255 - 19

/-- The order of the base point, a prime. -/
def order : Nat := Nat.pow 2 252 + 27742317777372353535851937790883648493

/-! ## Field -/

namespace Field

def add (first second : Nat) : Nat := (first + second) % prime

def sub (first second : Nat) : Nat := (first + prime - second % prime) % prime

def mul (first second : Nat) : Nat := first * second % prime

/-- Powers by repeated squaring, at most `fuel` times. -/
def powerWithin : (fuel : Nat) → (base exponent : Nat) → Nat
  | 0, _, _ => 1
  | fuel + 1, base, exponent =>
      let square := powerWithin fuel (mul base base) (exponent / 2)
      if exponent % 2 = 1 then mul base square else square

/-- A power; exponents are below `2 ^ 256`. -/
def power (base exponent : Nat) : Nat := powerWithin 256 base exponent

/-- The inverse of a nonzero element. -/
def inverse (element : Nat) : Nat := power element (prime - 2)

/-- A square root of minus one. -/
def rootOfMinusOne : Nat := power 2 ((prime - 1) / 4)

end Field

/-- The coefficient of the curve, `-121665 / 121666`. -/
def coefficient : Nat := Field.mul (prime - 121665) (Field.inverse 121666)

/-! ## Points -/

/-- A point with `x = x' / z`, `y = y' / z` and `t = x' y' / z`. -/
structure Point where
  x : Nat
  y : Nat
  z : Nat
  t : Nat

namespace Point

open Ed25519.Field

/-- The neutral point. -/
def zero : Point := ⟨0, 1, 1, 0⟩

def ofAffine (x y : Nat) : Point := ⟨x, y, 1, mul x y⟩

/-- Sum of two points; the formula holds for all pairs. -/
def add (first second : Point) : Point :=
  let a := mul (sub first.y first.x) (sub second.y second.x)
  let b := mul (Field.add first.y first.x) (Field.add second.y second.x)
  let c := mul (mul first.t (2 * coefficient)) second.t
  let d := mul (2 * first.z) second.z
  let e := sub b a
  let f := sub d c
  let g := Field.add d c
  let h := Field.add b a
  ⟨mul e f, mul g h, mul f g, mul e h⟩

def negate (point : Point) : Point := ⟨sub 0 point.x, point.y, point.z, sub 0 point.t⟩

/-- Multiples by repeated doubling, at most `fuel` times. -/
def multipleWithin : (fuel : Nat) → Point → (scalar : Nat) → Point
  | 0, _, _ => zero
  | fuel + 1, point, scalar =>
      let double := multipleWithin fuel (add point point) (scalar / 2)
      if scalar % 2 = 1 then add point double else double

/-- A multiple; scalars are below `2 ^ 256`. -/
def multiple (scalar : Nat) (point : Point) : Point := multipleWithin 256 point scalar

/-- The 32 bytes of a point. -/
def encode (point : Point) : Bytes :=
  let scale := inverse point.z
  let x := mul point.x scale
  let y := mul point.y scale
  Bytes.ofNatReversed 32 (y + Nat.pow 2 255 * (x % 2))

theorem length_encode (point : Point) : point.encode.length = 32 :=
  Bytes.length_ofNatReversed 32 _

/-- The coordinate `x` of the parity asked for, when there is a point with the coordinate `y`. -/
def recoverX? (y parity : Nat) : Option Nat :=
  let square := mul y y
  let top := sub square 1
  let bottom := Field.add (mul coefficient square) 1
  let cube := mul (mul bottom bottom) bottom
  let candidate :=
    mul (mul top cube) (power (mul top (mul (mul cube cube) bottom)) ((prime - 5) / 8))
  let check := mul bottom (mul candidate candidate)
  let root :=
    if check = top then some candidate
    else if check = sub 0 top then some (mul candidate rootOfMinusOne)
    else none
  root.map fun x => if x % 2 = parity then x else sub 0 x

/-- The point written by 32 bytes. The coordinate `y` need not be reduced. -/
def decode? (bytes : Bytes) : Option Point :=
  let number := Bytes.toNatReversed bytes
  let y := number % Nat.pow 2 255 % prime
  (recoverX? y (number / Nat.pow 2 255)).map fun x => ofAffine x y

end Point

/-- The base point: `y` is four fifths and `x` is even. -/
def base : Point :=
  let y := Field.mul 4 (Field.inverse 5)
  Point.ofAffine ((Point.recoverX? y 0).getD 0) y

end UtxoLedger.Ed25519
