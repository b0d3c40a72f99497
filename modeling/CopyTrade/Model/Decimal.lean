import Mathlib.Data.Rat.Floor

/-!
# The decimal type of the code

`rust_decimal::Decimal` is a dependency of the repository, so it is a parameter of the
model: a type `D` with the operations the code calls.  Every comparison the code makes is a
comparison of values (`toRat`), and two decimals may carry one value with different scales,
exactly as `1.0` and `1.00` do; `checked_*` operations may round and may fail.  The scale and
the sign bit of a zero are read nowhere, so `0`, `0.00` and `-0` may be one element of `D`.

`Decimal ℚ` is the exact instance: nothing rounds and only a division by zero fails.
-/

namespace CopyTrade.Model

/-- The operations of `rust_decimal::Decimal` that the code uses. -/
class Decimal (D : Type) where
  /-- The value of a decimal. -/
  toRat : D → ℚ
  /-- `scale()`, the number of decimal places carried. -/
  scale : D → ℕ
  new : ℤ → ℕ → D
  /-- Unary minus. -/
  neg : D → D
  floor : D → D
  ceil : D → D
  checkedAdd : D → D → Option D
  checkedSub : D → D → Option D
  checkedMul : D → D → Option D
  checkedDiv : D → D → Option D
  /-- `checked_rem`; the operator `%` panics where this is `none`. -/
  checkedRem : D → D → Option D
  /-- `to_string()`. -/
  text : D → String
  /-- `normalize().to_string()`. -/
  normalizedText : D → String

namespace Decimal

variable {D : Type} [Decimal D]

def zero : D := new 0 0

def one : D := new 1 0

/-- `a == b`. -/
def eqv (a b : D) : Bool := toRat a == toRat b

/-- `a < b`. -/
def lt (a b : D) : Bool := decide (toRat a < toRat b)

/-- `a <= b`. -/
def le (a b : D) : Bool := decide (toRat a ≤ toRat b)

def isZero (a : D) : Bool := toRat a == 0

/-- `is_sign_positive()`, for the values the code asks it of. -/
def isSignPositive (a : D) : Bool := decide (0 ≤ toRat a)

def abs (a : D) : D := if isSignPositive a then a else neg a

def max (a b : D) : D := if lt a b then b else a

def min (a b : D) : D := if lt b a then b else a

def clamp (a low high : D) : D := if lt a low then low else if lt high a then high else a

/-- `signum()`, as an integer. -/
def signum (a : D) : ℤ := if toRat a < 0 then -1 else if toRat a = 0 then 0 else 1

@[simp] theorem eqv_refl (a : D) : eqv a a = true := by simp [eqv]

theorem eqv_iff {a b : D} : eqv a b = true ↔ toRat a = toRat b := by simp [eqv]

theorem lt_iff {a b : D} : lt a b = true ↔ toRat a < toRat b := by simp [lt]

theorem le_iff {a b : D} : le a b = true ↔ toRat a ≤ toRat b := by simp [le]

end Decimal

/-- Two optional results agree when both fail or both give one value. -/
def sameResult {D : Type} [Decimal D] (x y : Option D) : Prop :=
  x.map Decimal.toRat = y.map Decimal.toRat

namespace ExactDecimal

/-- The number of decimal places a rational needs, or `29` when 28 are not enough. -/
def decimalPlaces (q : ℚ) : ℕ :=
  ((List.range 29).find? fun s => (q * 10 ^ s).den == 1).getD 29

/-- The decimal text of a rational with finitely many decimal places. -/
def text (q : ℚ) : String :=
  let places := decimalPlaces q
  let mantissa := (q * 10 ^ places).num.natAbs
  let fraction := toString (mantissa % 10 ^ places)
  (if q < 0 then "-" else "") ++ toString (mantissa / 10 ^ places) ++
    (if places = 0 then ""
      else "." ++ String.ofList (List.replicate (places - fraction.length) '0') ++ fraction)

end ExactDecimal

instance : Decimal ℚ where
  toRat q := q
  scale := ExactDecimal.decimalPlaces
  new mantissa scale := mantissa / 10 ^ scale
  neg q := -q
  floor q := (⌊q⌋ : ℤ)
  ceil q := (⌈q⌉ : ℤ)
  checkedAdd a b := some (a + b)
  checkedSub a b := some (a - b)
  checkedMul a b := some (a * b)
  checkedDiv a b := if b = 0 then none else some (a / b)
  checkedRem a b :=
    if b = 0 then none else some (a - b * (if 0 ≤ a / b then ⌊a / b⌋ else ⌈a / b⌉ : ℤ))
  text := ExactDecimal.text
  normalizedText := ExactDecimal.text

/-- What `rust_decimal` does with a zero operand, zeros of all scales being one element: a
product with zero is a zero, and adding a zero returns the other operand itself. -/
class DecimalZeroLaws (D : Type) [Decimal D] : Prop where
  zero_mul : ∀ x : D, ∃ z, Decimal.checkedMul Decimal.zero x = some z ∧ Decimal.isZero z = true
  add_zero : ∀ x z : D, Decimal.isZero z = true → Decimal.checkedAdd x z = some x

instance : DecimalZeroLaws ℚ where
  zero_mul x := ⟨0, by simp [Decimal.checkedMul, Decimal.zero, Decimal.new], rfl⟩
  add_zero x z hz := by
    have hzero : z = 0 := by simpa [Decimal.isZero, Decimal.toRat] using hz
    simp [Decimal.checkedAdd, hzero]

/-- What `rust_decimal` keeps of the laws of addition: rounding treats a sum and its negation
alike, a number and its negation cancel, and a sum of positive numbers does not vanish. -/
class DecimalSumLaws (D : Type) [Decimal D] : Prop extends DecimalZeroLaws D where
  toRat_zero : Decimal.toRat (Decimal.zero : D) = 0
  toRat_neg : ∀ x : D, Decimal.toRat (Decimal.neg x) = -Decimal.toRat x
  neg_neg : ∀ x : D, Decimal.neg (Decimal.neg x) = x
  add_comm : ∀ x y : D, Decimal.checkedAdd x y = Decimal.checkedAdd y x
  sub_eq_add_neg : ∀ x y : D, Decimal.checkedSub x y = Decimal.checkedAdd x (Decimal.neg y)
  neg_add : ∀ x y : D, Decimal.checkedAdd (Decimal.neg x) (Decimal.neg y) =
    (Decimal.checkedAdd x y).map Decimal.neg
  add_neg_self : ∀ x z : D, Decimal.checkedAdd x (Decimal.neg x) = some z →
    Decimal.isZero z = true
  add_pos : ∀ x y z : D, 0 < Decimal.toRat x → 0 < Decimal.toRat y →
    Decimal.checkedAdd x y = some z → 0 < Decimal.toRat z

instance : DecimalSumLaws ℚ where
  toRat_zero := by simp [Decimal.zero, Decimal.new, Decimal.toRat]
  toRat_neg _ := rfl
  neg_neg x := show - -x = x from neg_neg x
  add_comm x y := congrArg some (add_comm x y)
  sub_eq_add_neg x y := congrArg some (sub_eq_add_neg x y)
  neg_add x y := congrArg some (neg_add x y).symm
  add_neg_self x z h := by
    have hz : x + -x = z := Option.some.inj h
    simp [Decimal.isZero, Decimal.toRat, ← hz]
  add_pos x y z hx hy h := by
    have hz : x + y = z := Option.some.inj h
    exact hz ▸ add_pos hx hy

/-- What `rust_decimal` keeps of the order: `new` is exact for a mantissa and a scale that fit, and
no result has another sign than the exact one. -/
class DecimalSignLaws (D : Type) [Decimal D] : Prop where
  toRat_new : ∀ (mantissa : ℤ) (scale : ℕ), |mantissa| < 2 ^ 96 → scale ≤ 28 →
    Decimal.toRat (Decimal.new mantissa scale : D) = mantissa / 10 ^ scale
  add_nonneg : ∀ x y z : D, 0 ≤ Decimal.toRat x → 0 ≤ Decimal.toRat y →
    Decimal.checkedAdd x y = some z → 0 ≤ Decimal.toRat z
  sub_nonneg : ∀ x y z : D, Decimal.toRat y ≤ Decimal.toRat x →
    Decimal.checkedSub x y = some z → 0 ≤ Decimal.toRat z
  mul_nonneg : ∀ x y z : D, 0 ≤ Decimal.toRat x → 0 ≤ Decimal.toRat y →
    Decimal.checkedMul x y = some z → 0 ≤ Decimal.toRat z
  div_nonneg : ∀ x y z : D, 0 ≤ Decimal.toRat x → 0 ≤ Decimal.toRat y →
    Decimal.checkedDiv x y = some z → 0 ≤ Decimal.toRat z

instance : DecimalSignLaws ℚ where
  toRat_new _ _ _ _ := rfl
  add_nonneg x y z hx hy h := by
    have hz : x + y = z := Option.some.inj h
    exact hz ▸ add_nonneg hx hy
  sub_nonneg x y z hxy h := by
    have hz : x - y = z := Option.some.inj h
    exact hz ▸ sub_nonneg.mpr hxy
  mul_nonneg x y z hx hy h := by
    have hz : x * y = z := Option.some.inj h
    exact hz ▸ mul_nonneg hx hy
  div_nonneg x y z hx hy h := by
    have hz : (if y = 0 then none else some (x / y)) = some z := h
    split at hz
    · cases hz
    · exact Option.some.inj hz ▸ div_nonneg hx hy

/-- What `rust_decimal` keeps of monotony: `floor` and `ceil` are exact, and the rounding of products
and quotients does not change the order of the exact ones. -/
class DecimalOrderLaws (D : Type) [Decimal D] : Prop extends DecimalSignLaws D where
  toRat_floor : ∀ x : D, Decimal.toRat (Decimal.floor x) = ⌊Decimal.toRat x⌋
  toRat_ceil : ∀ x : D, Decimal.toRat (Decimal.ceil x) = ⌈Decimal.toRat x⌉
  mul_mono : ∀ x y f g p q : D, Decimal.toRat x * Decimal.toRat f ≤ Decimal.toRat y * Decimal.toRat g →
    Decimal.checkedMul x f = some p → Decimal.checkedMul y g = some q →
    Decimal.toRat p ≤ Decimal.toRat q
  div_mono : ∀ x y f p q : D, 0 < Decimal.toRat f → Decimal.toRat x ≤ Decimal.toRat y →
    Decimal.checkedDiv x f = some p → Decimal.checkedDiv y f = some q →
    Decimal.toRat p ≤ Decimal.toRat q

instance : DecimalOrderLaws ℚ where
  toRat_floor _ := rfl
  toRat_ceil _ := rfl
  mul_mono x y f g p q hle hp hq := by
    have hx : x * f = p := Option.some.inj hp
    have hy : y * g = q := Option.some.inj hq
    exact hx ▸ hy ▸ hle
  div_mono x y f p q hf hle hp hq := by
    have hx : (if f = 0 then none else some (x / f)) = some p := hp
    have hy : (if f = 0 then none else some (y / f)) = some q := hq
    have hne : ¬ f = 0 := ne_of_gt hf
    rw [if_neg hne] at hx hy
    exact Option.some.inj hx ▸ Option.some.inj hy ▸ div_le_div_of_nonneg_right hle hf.le

end CopyTrade.Model

namespace CopyTrade.Model.ExactDecimal

@[simp] theorem toRat_eq (q : ℚ) : Decimal.toRat q = q := rfl

@[simp] theorem zero_eq : (Decimal.zero : ℚ) = 0 := by
  simp [Decimal.zero, Decimal.new]

@[simp] theorem one_eq : (Decimal.one : ℚ) = 1 := by
  simp [Decimal.one, Decimal.new]

@[simp] theorem neg_eq (q : ℚ) : Decimal.neg q = -q := rfl

@[simp] theorem checkedAdd_eq (a b : ℚ) : Decimal.checkedAdd a b = some (a + b) := rfl

@[simp] theorem checkedSub_eq (a b : ℚ) : Decimal.checkedSub a b = some (a - b) := rfl

@[simp] theorem checkedMul_eq (a b : ℚ) : Decimal.checkedMul a b = some (a * b) := rfl

theorem foldlM_checkedAdd (quantities : List ℚ) (start : ℚ) :
    quantities.foldlM Decimal.checkedAdd start = some (start + quantities.sum) := by
  induction quantities generalizing start with
  | nil => simp
  | cons quantity quantities ih =>
    rw [List.foldlM_cons, checkedAdd_eq, Option.bind_eq_bind, Option.bind_some, ih, List.sum_cons,
      add_assoc]

theorem checkedDiv_eq {a b : ℚ} (h : b ≠ 0) : Decimal.checkedDiv a b = some (a / b) :=
  if_neg h

@[simp] theorem isZero_iff_eq_zero (q : ℚ) : Decimal.isZero q = true ↔ q = 0 := by
  simp [Decimal.isZero]

@[simp] theorem isZero_eq_false_iff_ne (q : ℚ) : Decimal.isZero q = false ↔ q ≠ 0 := by
  simp [Decimal.isZero]

@[simp] theorem isSignPositive_iff_nonneg (q : ℚ) : Decimal.isSignPositive q = true ↔ 0 ≤ q := by
  simp [Decimal.isSignPositive]

@[simp] theorem eqv_iff_eq (a b : ℚ) : Decimal.eqv a b = true ↔ a = b := by
  simp [Decimal.eqv]

@[simp] theorem le_iff_le (a b : ℚ) : Decimal.le a b = true ↔ a ≤ b := by
  simp [Decimal.le]

@[simp] theorem lt_iff_lt (a b : ℚ) : Decimal.lt a b = true ↔ a < b := by
  simp [Decimal.lt]

@[simp] theorem abs_eq (q : ℚ) : Decimal.abs q = |q| := by
  unfold Decimal.abs
  by_cases h : 0 ≤ q
  · rw [if_pos ((isSignPositive_iff_nonneg q).mpr h), abs_of_nonneg h]
  · rw [if_neg (mt (isSignPositive_iff_nonneg q).mp h), abs_of_neg (not_le.mp h), neg_eq]

@[simp] theorem min_eq (a b : ℚ) : Decimal.min a b = Min.min a b := by
  unfold Decimal.min
  by_cases h : b < a
  · rw [if_pos ((lt_iff_lt b a).mpr h), min_eq_right h.le]
  · rw [if_neg (mt (lt_iff_lt b a).mp h), min_eq_left (not_lt.mp h)]

@[simp] theorem max_eq (a b : ℚ) : Decimal.max a b = Max.max a b := by
  unfold Decimal.max
  by_cases h : a < b
  · rw [if_pos ((lt_iff_lt a b).mpr h), max_eq_right h.le]
  · rw [if_neg (mt (lt_iff_lt a b).mp h), max_eq_left (not_lt.mp h)]

end CopyTrade.Model.ExactDecimal
