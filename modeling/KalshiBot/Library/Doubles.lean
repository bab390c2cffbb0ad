import KalshiBot.Library.TextValues
import Mathlib.Data.Int.Log

/-! # Floating-point numbers

A float is a finite number, an infinity or NaN; its zero has no sign here. The arithmetic is that
of the numbers themselves, each result handed to a rounding: `nearest` is that of binary64, and
with `finite` in its place nothing is rounded. A `none` is the exception that Python raises.
-/

namespace KalshiBot.PythonText

set_option autoImplicit false

inductive PyFloat where
  | finite (q : ℚ)
  | inf (negative : Bool)
  | nan
  deriving DecidableEq

/-- The nearest binary64 number, the even one of two; infinite from half a unit above the
largest on, and never finer than the subnormal numbers. -/
def nearest (q : ℚ) : PyFloat :=
  let unit : ℚ := 2 ^ max (Int.log 2 |q| - 52) (-1074)
  let rounded := roundHalfEven (q / unit) * unit
  if 2 ^ 1024 ≤ |rounded| then .inf (q < 0) else .finite rounded

example : [1 / 10, 10 ^ 400, -1 / 10 ^ 400, 2 ^ 1024 - 2 ^ 970 - 1].map nearest =
    [.finite (3602879701896397 / 36028797018963968), .inf false, .finite 0,
      .finite (2 ^ 1024 - 2 ^ 971)] := by decide +kernel

/-- `float(s)`; `none` stands for the `ValueError`. -/
def parseDouble (s : String) : Option PyFloat :=
  let (sign, word) := signedRun (numeralText s)
  let word := String.ofList (word.map Char.toLower)
  if word = "inf" ∨ word = "infinity" then some (.inf (sign < 0))
  else if word = "nan" then some .nan
  else (readDecimal (numeralText s)).map nearest

example : [" 0.5", "-Infinity", "nan", "1e400", "1e-400", "\u0661.5", "", "0x1"].map parseDouble =
    [some (.finite (1 / 2)), some (.inf true), some .nan, some (.inf false), some (.finite 0),
      some (.finite (3 / 2)), none, none] := by decide +kernel

/-- `float(value)`; `none` stands for the `TypeError` or `ValueError`. The decoder of JSON gives
no integer that is too large for a float. -/
def PyValue.toDouble : PyValue → Option PyFloat
  | .bool b => some (.finite (if b then 1 else 0))
  | .int i => some (nearest i)
  | .float q => some (.finite q)
  | .str s => parseDouble s
  | .null | .list _ | .dict _ => none

namespace PyFloat

def lt : PyFloat → PyFloat → Bool
  | finite p, finite q => p < q
  | finite _, inf negative => !negative
  | inf negative, finite _ => negative
  | inf negative, inf other => negative && !other
  | nan, _ | _, nan => false

def le (x y : PyFloat) : Bool := x.lt y ∨ x = y ∧ x ≠ nan

/-- `max(x, y)`, which is its first argument unless the second is above it. -/
def maxOf (x y : PyFloat) : PyFloat := if x.lt y then y else x

def minOf (x y : PyFloat) : PyFloat := if y.lt x then y else x

/-- `int(x)`; an infinity is an `OverflowError` and NaN a `ValueError`. -/
def toInt : PyFloat → Option ℤ
  | finite q => some (truncate q)
  | inf _ | nan => none

/-- `round(x)`, which raises where `int` does. -/
def toNearestInt : PyFloat → Option ℤ
  | finite q => some (roundHalfEven q)
  | inf _ | nan => none

def neg : PyFloat → PyFloat
  | finite q => finite (-q)
  | inf negative => inf !negative
  | nan => nan

def abs : PyFloat → PyFloat
  | finite q => finite |q|
  | inf _ => inf false
  | nan => nan

/-- `f"{x:.nf}"`. -/
def fixed (digits : ℕ) : PyFloat → String
  | finite q => formatFixed digits q
  | inf negative => if negative then "-inf" else "inf"
  | nan => "nan"

/-- `f"{x:g}"`. -/
def general : PyFloat → String
  | finite q => formatGeneral q
  | inf negative => if negative then "-inf" else "inf"
  | nan => "nan"

section Arithmetic

variable (round : ℚ → PyFloat)

def add : PyFloat → PyFloat → PyFloat
  | finite p, finite q => round (p + q)
  | inf negative, inf other => if negative = other then inf negative else nan
  | inf negative, finite _ | finite _, inf negative => inf negative
  | nan, _ | _, nan => nan

def sub (x y : PyFloat) : PyFloat := x.add round y.neg

def mul : PyFloat → PyFloat → PyFloat
  | finite p, finite q => round (p * q)
  | inf negative, inf other => inf (negative ^^ other)
  | inf negative, finite q | finite q, inf negative =>
    if q = 0 then nan else inf (negative ^^ (q < 0))
  | nan, _ | _, nan => nan

/-- `none` is the `ZeroDivisionError`; a quotient that is too large is infinite. -/
def div : PyFloat → PyFloat → Option PyFloat
  | x, finite q =>
    if q = 0 then none
    else match x with
      | finite p => some (round (p / q))
      | inf negative => some (inf (negative ^^ (q < 0)))
      | nan => some nan
  | finite _, inf _ => some (finite 0)
  | inf _, inf _ | nan, inf _ | _, nan => some nan

/-- A whole number as a float, or a quotient of two; `none` is the `OverflowError`. -/
def ofRat (q : ℚ) : Option PyFloat :=
  match round q with
  | finite p => some (finite p)
  | inf _ | nan => none

/-- One turn of `sum`: the sum so far, and what rounding has cut off from it. -/
def sumStep (sum : PyFloat × PyFloat) (x : PyFloat) : PyFloat × PyFloat :=
  let next := sum.1.add round x
  let cut :=
    if x.abs.le sum.1.abs then (sum.1.sub round next).add round x
    else (x.sub round next).add round sum.1
  (next, sum.2.add round cut)

/-- `sum` of floats, which adds what was cut off at the end. -/
def sum : List PyFloat → PyFloat
  | [] => finite 0
  | x :: rest =>
    let total := rest.foldl (sumStep round) (x, finite 0)
    match total.2 with
    | finite q => if q = 0 then total.1 else total.1.add round (finite q)
    | inf _ | nan => total.1

end Arithmetic

example : sum nearest ([1 / 10, 2 / 10, 3 / 10].map nearest) = nearest (6 / 10) := by decide +kernel

section Exact

variable (p q : ℚ)

@[simp] theorem lt_finite : (finite p).lt (finite q) = decide (p < q) := rfl

@[simp] theorem le_finite : (finite p).le (finite q) = decide (p ≤ q) := by
  simp [le, le_iff_lt_or_eq]

@[simp] theorem maxOf_finite : (finite p).maxOf (finite q) = finite (max p q) := by
  rw [maxOf, lt_finite, max_def_lt]
  by_cases hLess : p < q <;> simp [hLess]

@[simp] theorem minOf_finite : (finite p).minOf (finite q) = finite (min p q) := by
  rw [minOf, lt_finite, min_comm, min_def_lt]
  by_cases hLess : q < p <;> simp [hLess]

@[simp] theorem add_finite : (finite p).add finite (finite q) = finite (p + q) := rfl

@[simp] theorem sub_finite : (finite p).sub finite (finite q) = finite (p - q) := by
  rw [sub, neg, add_finite, sub_eq_add_neg]

@[simp] theorem mul_finite : (finite p).mul finite (finite q) = finite (p * q) := rfl

@[simp] theorem ofRat_finite : ofRat finite q = some (finite q) := rfl

variable {q} in
theorem div_finite (h : q ≠ 0) : (finite p).div finite (finite q) = some (finite (p / q)) := by
  rw [div, if_neg h]

/-- Nothing is cut off where nothing is rounded. -/
theorem sum_finite (values : List ℚ) : sum finite (values.map finite) = finite values.sum := by
  have hFold : ∀ (rest : List ℚ) (total : ℚ),
      (rest.map finite).foldl (sumStep finite) (finite total, finite 0) =
        (finite (total + rest.sum), finite 0) := by
    intro rest
    induction rest with
    | nil => intro total; simp
    | cons x rest ih =>
      intro total
      have hStep : sumStep finite (finite total, finite 0) (finite x) =
          (finite (total + x), finite 0) := by
        simp [sumStep]
      rw [List.map_cons, List.foldl_cons, hStep, ih, List.sum_cons, add_assoc]
  cases values with
  | nil => rfl
  | cons x rest =>
    rw [List.map_cons, sum, hFold, List.sum_cons]
    exact if_pos rfl

end Exact

end PyFloat

end KalshiBot.PythonText
