import Mathlib.Algebra.Order.Field.Basic
import Mathlib.Tactic.FieldSimp
import Mathlib.Tactic.Linarith
import Mathlib.Tactic.Ring

/-!
# Positions carried at average cost

A lot is a signed quantity carried at the average price of its entries, with the result its closings
have realized.  A trade of `delta` at `price` moves the cash by `-delta * price` whatever it does to
the lot, and the worth is the cash plus the marked quantity.
-/

namespace CopyTrade.Foundation

variable {K : Type} [Field K] [LinearOrder K] [IsStrictOrderedRing K]

/-- A signed quantity at its average entry price, and the result realized on it. -/
structure Lot (K : Type) where
  quantity : K
  average : K
  realized : K

namespace Lot

omit [LinearOrder K] [IsStrictOrderedRing K] in
def cash (lot : Lot K) : K :=
  lot.realized - lot.quantity * lot.average

omit [LinearOrder K] [IsStrictOrderedRing K] in
def worth (lot : Lot K) (mark : K) : K :=
  lot.realized + lot.quantity * (mark - lot.average)

def start (delta price : K) : Lot K :=
  ⟨delta, price, 0⟩

def grow (lot : Lot K) (delta price : K) : Lot K where
  quantity := lot.quantity + delta
  average := (|lot.quantity| * lot.average + |delta| * price) / (|lot.quantity| + |delta|)
  realized := lot.realized

def unitResult (lot : Lot K) (price : K) : K :=
  if 0 ≤ lot.quantity then price - lot.average else lot.average - price

def closing (lot : Lot K) (quantity : K) : K :=
  if 0 ≤ lot.quantity then -quantity else quantity

def reduce (lot : Lot K) (quantity price : K) : Lot K where
  quantity := lot.quantity + lot.closing quantity
  average := lot.average
  realized := lot.realized + lot.unitResult price * quantity

omit [LinearOrder K] [IsStrictOrderedRing K] in
theorem cash_start (delta price : K) : (start delta price).cash = -(delta * price) := by
  unfold start cash
  ring

theorem abs_of_same_sign {a b : K} (hsame : 0 ≤ a ↔ 0 ≤ b) :
    |a| = a ∧ |b| = b ∨ |a| = -a ∧ |b| = -b := by
  by_cases ha : 0 ≤ a
  · exact .inl ⟨abs_of_nonneg ha, abs_of_nonneg (hsame.mp ha)⟩
  · have hb : ¬ 0 ≤ b := fun hb => ha (hsame.mpr hb)
    exact .inr ⟨abs_of_neg (not_le.mp ha), abs_of_neg (not_le.mp hb)⟩

theorem cash_grow (lot : Lot K) {delta : K} (price : K) (hsame : 0 ≤ lot.quantity ↔ 0 ≤ delta)
    (hdelta : delta ≠ 0) : (lot.grow delta price).cash = lot.cash - delta * price := by
  have hpositive : 0 < |lot.quantity| + |delta| :=
    add_pos_of_nonneg_of_pos (abs_nonneg _) (abs_pos.mpr hdelta)
  have hcost : (lot.quantity + delta) *
      ((|lot.quantity| * lot.average + |delta| * price) / (|lot.quantity| + |delta|)) =
        lot.quantity * lot.average + delta * price := by
    rw [mul_div_assoc', div_eq_iff hpositive.ne']
    rcases abs_of_same_sign hsame with ⟨hq, hd⟩ | ⟨hq, hd⟩
    · rw [hq, hd]
      ring
    · rw [hq, hd]
      ring
  unfold cash grow
  rw [hcost]
  ring

omit [IsStrictOrderedRing K] in
theorem cash_reduce (lot : Lot K) (quantity price : K) :
    (lot.reduce quantity price).cash = lot.cash - lot.closing quantity * price := by
  unfold cash reduce unitResult closing
  dsimp only
  by_cases hsign : 0 ≤ lot.quantity
  · simp only [if_pos hsign]
    ring
  · simp only [if_neg hsign]
    ring

end Lot

end CopyTrade.Foundation
