/-! # The curve behind the keys

The curve `y² = x³ + 486662 x² + x` over the field of `2 ^ 255 - 19` elements, as far as keys need
it: the horizontal coordinate of a multiple of a point.

* `Point`: a horizontal coordinate as a fraction;
* `double`, `addNear`: doubling, and adding two points whose difference is known;
* `multiple`: the multiple by a binary number, bit by bit from the top (the **ladder**). -/

namespace WireKeeper.Curve

/-- The number of field elements, a prime; an element is a number below it. -/
def order : Nat := Nat.pow 2 255 - 19

/-- The product of two field elements, which is below `order` again. -/
def mul (a b : Nat) : Nat := a * b % order

/-- The sum of two field elements, which is below `order` again. -/
def add (a b : Nat) : Nat := (a + b) % order

/-- The difference of two field elements below `order`, where `order` is added so that nothing is
cut off at zero. -/
def sub (a b : Nat) : Nat := (a + order - b) % order

/-- A power with an exponent given by its bits, the most significant first: squaring for each bit,
and one multiplication more where it is set. -/
def power (a : Nat) (bits : List Bool) : Nat :=
  bits.foldl (fun r b => let s := mul r r; if b then mul s a else s) 1

/-- The lowest `size` bits of a number, the most significant first. -/
def bits (size n : Nat) : List Bool := (List.range size).map fun i => n.testBit (size - 1 - i)

/-- The inverse of a field element, and zero for zero: the power by `order - 2`, as the order is a
prime. -/
def inverse (a : Nat) : Nat := power a (bits 255 (order - 2))

/-- A horizontal coordinate `x / z`; `z = 0` is the point at infinity. Fractions save an inversion
in every step. -/
structure Point where
  x : Nat
  z : Nat
  deriving Repr, DecidableEq

/-- The coordinate of a point as one field element, which is zero for the point at infinity. -/
def Point.affine (p : Point) : Nat := mul p.x (inverse p.z)

/-- Twice a point, from its horizontal coordinate alone. -/
def double (p : Point) : Point :=
  let s := add p.x p.z
  let d := sub p.x p.z
  let ss := mul s s
  let dd := mul d d
  let e := sub ss dd
  ⟨mul ss dd, mul e (add ss (mul 121665 e))⟩

/-- The sum of two points whose difference has the coordinate `u`; for other points the result means
nothing. -/
def addNear (u : Nat) (p q : Point) : Point :=
  let da := mul (sub q.x q.z) (add p.x p.z)
  let cb := mul (add q.x q.z) (sub p.x p.z)
  let s := add da cb
  let d := sub da cb
  ⟨mul s s, mul u (mul d d)⟩

/-- One rung of the ladder: from the multiples by `n` and `n + 1` to those by `2 n` and `2 n + 1`,
or by `2 n + 1` and `2 n + 2` when the bit is set. Their difference stays the point itself. -/
def rung (u : Nat) (pair : Point × Point) (bit : Bool) : Point × Point :=
  let middle := addNear u pair.1 pair.2
  if bit then (middle, double pair.2) else (double pair.1, middle)

/-- The multiple of the point with the coordinate `u` by a number below `2 ^ 255`, bit by bit from
the top. -/
def multiple (u n : Nat) : Nat :=
  ((bits 255 n).foldl (rung u) (⟨1, 0⟩, ⟨u, 1⟩)).1.affine

/-- The coordinate of the base point, of which public keys are multiples. -/
def base : Nat := 9

/-- There are as many bits as were asked for: `(bits size n).length = size`. -/
@[simp] theorem length_bits (size n : Nat) : (bits size n).length = size := by simp [bits]

end WireKeeper.Curve
