import CopyTrade.Model.Core.IdentityHash
import Std.Data.String.ToInt

/-!
# Whole amounts

The integers as a decimal type whose text is read back, for runs on concrete inputs, and the
integers that fit a mantissa.
-/

namespace CopyTrade.Model

instance : Decimal ℤ where
  toRat n := n
  scale _ := 0
  new mantissa scale := mantissa / 10 ^ scale
  neg n := -n
  floor n := n
  ceil n := n
  checkedAdd a b := some (a + b)
  checkedSub a b := some (a - b)
  checkedMul a b := some (a * b)
  checkedDiv a b := if b = 0 then none else some (a.tdiv b)
  checkedRem a b := if b = 0 then none else some (a.tmod b)
  text := Int.repr
  normalizedText := Int.repr

instance : DecimalSumLaws ℤ where
  zero_mul x := ⟨0, by simp [Decimal.checkedMul, Decimal.zero, Decimal.new], rfl⟩
  add_zero x z hz := by
    have hzero : z = 0 := by simpa [Decimal.isZero, Decimal.toRat] using hz
    simp [Decimal.checkedAdd, hzero]
  toRat_zero := rfl
  toRat_neg x := Int.cast_neg x
  neg_neg x := show - -x = x from neg_neg x
  add_comm x y := congrArg some (add_comm x y)
  sub_eq_add_neg x y := congrArg some (sub_eq_add_neg x y)
  neg_add x y := congrArg some (neg_add x y).symm
  add_neg_self x z h := by
    have hz : x + -x = z := Option.some.inj h
    simp [Decimal.isZero, Decimal.toRat, ← hz]
  add_pos x y z hx hy h := by
    have hz : x + y = z := Option.some.inj h
    have hx : (0 : ℚ) < x := hx
    have hy : (0 : ℚ) < y := hy
    show (0 : ℚ) < z
    rw [← hz, Int.cast_add]
    exact add_pos hx hy

instance : DecimalText ℤ where
  parse := String.toInt?
  parse_text := Int.toInt?_repr

def BoundedWhole : Type := { n : ℤ // |n| < 2 ^ 96 }

namespace BoundedWhole

def ofInt (n : ℤ) : Option BoundedWhole := if h : |n| < 2 ^ 96 then some ⟨n, h⟩ else none

def checked (result : Option ℤ) : Option BoundedWhole := result.bind ofInt

instance : Decimal BoundedWhole where
  toRat n := n.1
  scale _ := 0
  new mantissa scale := (ofInt (Decimal.new mantissa scale)).getD ⟨0, by norm_num⟩
  neg n := ⟨-n.1, by rw [abs_neg]; exact n.2⟩
  floor n := n
  ceil n := n
  checkedAdd a b := checked (Decimal.checkedAdd a.1 b.1)
  checkedSub a b := checked (Decimal.checkedSub a.1 b.1)
  checkedMul a b := checked (Decimal.checkedMul a.1 b.1)
  checkedDiv a b := checked (Decimal.checkedDiv a.1 b.1)
  checkedRem a b := checked (Decimal.checkedRem a.1 b.1)
  text n := Int.repr n.1
  normalizedText n := Int.repr n.1

instance : DecimalText BoundedWhole where
  parse text := text.toInt?.bind ofInt
  parse_text n := by
    show (Int.repr n.1).toInt?.bind ofInt = some n
    rw [Int.toInt?_repr, Option.bind_some]
    exact dif_pos n.2

instance : DecimalNormalize BoundedWhole where
  normalize n := n
  mantissa n := n.1

instance : DecimalNormalizeLaws BoundedWhole where
  normalizedText_eq _ := rfl
  toRat_normalize _ := rfl
  toRat_eq n := by
    show (n.1 : ℚ) = n.1 / 10 ^ 0
    rw [pow_zero, div_one]
  mantissa_lt n := n.2
  scale_le _ := Nat.zero_le _

end BoundedWhole

end CopyTrade.Model
