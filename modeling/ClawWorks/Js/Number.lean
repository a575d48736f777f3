import Mathlib.Algebra.Order.Floor.Ring
import Mathlib.Data.Rat.Floor
import Mathlib.Order.MinMax

/-!
# JavaScript numbers

The operations an expression performs on numbers are a parameter (`JsArithmetic`): the doubles of an engine and exact
rationals both provide them, and only the doubles have results that are not finite. Exact arithmetic is an instance on
the rationals.
-/

namespace ClawWorks

class JsArithmetic (ν : Type) where
  ofNat : Nat → ν
  neg : ν → ν
  abs : ν → ν
  round : ν → ν
  floor : ν → ν
  ceil : ν → ν
  add : ν → ν → ν
  sub : ν → ν → ν
  mul : ν → ν → ν
  div : ν → ν → ν
  rem : ν → ν → ν
  min : ν → ν → ν
  max : ν → ν → ν
  /-- `===`. -/
  eq : ν → ν → Bool
  lt : ν → ν → Bool
  le : ν → ν → Bool
  /-- `Number.isFinite`. -/
  isFinite : ν → Bool

/-- Exact arithmetic: a remainder has the sign of the dividend, and a half rounds up. -/
instance : JsArithmetic ℚ where
  ofNat n := n
  neg x := -x
  abs x := max x (-x)
  round x := ⌊x + 1 / 2⌋
  floor x := ⌊x⌋
  ceil x := ⌈x⌉
  add x y := x + y
  sub x y := x - y
  mul x y := x * y
  div x y := x / y
  rem x y := if 0 ≤ x / y then x - y * ⌊x / y⌋ else x - y * ⌈x / y⌉
  min x y := min x y
  max x y := max x y
  eq x y := x = y
  lt x y := x < y
  le x y := x ≤ y
  isFinite _ := true

end ClawWorks
