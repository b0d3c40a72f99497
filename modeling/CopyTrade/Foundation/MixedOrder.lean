import Mathlib.Order.Basic
import Mathlib.Tactic.Common
import Std.Data.ExtTreeMap

/-!
# Orders that use a rank only where both sides have one

Elements are compared by group and then by age, with a rank before the age where both of them are
ranked.  Such a comparison is always antisymmetric.  It is transitive on a set of elements exactly
when no element without a rank lies, by age, between two ranked ones that the rank puts the other
way round.
-/

namespace CopyTrade.Foundation

open Std

variable {α : Type} (group fair age : α → α → Ordering) (ranked : α → Bool)

def inGroup (a b : α) : Ordering :=
  if ranked a && ranked b then (fair a b).then (age a b) else age a b

def mixedOrder (a b : α) : Ordering := (group a b).then (inGroup fair age ranked a b)

/-- The element `m` has no rank and lies, by age, between `b` and `a`, which the rank puts the other
way round. -/
structure Inverted (a b m : α) : Prop where
  left : ranked a = true
  right : ranked b = true
  middle : ranked m = false
  groupLeft : group a m = .eq
  groupRight : group b m = .eq
  fair : fair a b = .lt
  ageRight : (age b m).isLE
  ageLeft : (age m a).isLE

theorem mixedOrder_swap [TransCmp group] [TransCmp fair] [TransCmp age] (a b : α) :
    mixedOrder group fair age ranked a b = (mixedOrder group fair age ranked b a).swap := by
  unfold mixedOrder inGroup
  rw [@OrientedCmp.eq_swap α group _ a b, Bool.and_comm, Ordering.swap_then]
  congr 1
  split
  · rw [@OrientedCmp.eq_swap α fair _ a b, @OrientedCmp.eq_swap α age _ a b, Ordering.swap_then]
  · rw [@OrientedCmp.eq_swap α age _ a b]

variable {group fair age : α → α → Ordering} {ranked : α → Bool}

theorem mixedOrder_isLE_iff (a b : α) : (mixedOrder group fair age ranked a b).isLE ↔
    group a b = .lt ∨ group a b = .eq ∧ (inGroup fair age ranked a b).isLE := by
  unfold mixedOrder
  rw [Ordering.isLE_then_iff_or]

theorem isLE_of_ranked {a b : α} (ha : ranked a = true) (hb : ranked b = true) :
    (inGroup fair age ranked a b).isLE ↔ fair a b = .lt ∨ fair a b = .eq ∧ (age a b).isLE := by
  unfold inGroup
  rw [ha, hb, Bool.and_true, if_pos rfl, Ordering.isLE_then_iff_or]

theorem inGroup_of_unranked_left {a b : α} (ha : ranked a = false) :
    inGroup fair age ranked a b = age a b := by
  unfold inGroup
  rw [ha, Bool.false_and, if_neg Bool.false_ne_true]

theorem inGroup_of_unranked_right {a b : α} (hb : ranked b = false) :
    inGroup fair age ranked a b = age a b := by
  unfold inGroup
  rw [hb, Bool.and_false, if_neg Bool.false_ne_true]

theorem isLE_of_not_isLE [TransCmp age] {a b : α} (h : ¬ (age a b).isLE) : (age b a).isLE := by
  have hgt : age a b = .gt := by simpa using h
  apply Ordering.isLE_of_eq_lt
  exact OrientedCmp.lt_of_gt hgt

/-- In one group, and without an inversion, the comparison is transitive. -/
theorem inGroup_trans [TransCmp group] [TransCmp fair] [TransCmp age] {a b c : α}
    (hab : group a b = .eq) (hbc : group b c = .eq)
    (hinverted : ∀ x ∈ [a, b, c], ∀ y ∈ [a, b, c], ∀ m ∈ [a, b, c],
      ¬ Inverted group fair age ranked x y m)
    (hleft : (inGroup fair age ranked a b).isLE) (hright : (inGroup fair age ranked b c).isLE) :
    (inGroup fair age ranked a c).isLE := by
  have hba : group b a = .eq := OrientedCmp.eq_symm hab
  have hcb : group c b = .eq := OrientedCmp.eq_symm hbc
  have hac : group a c = .eq := TransCmp.eq_trans hab hbc
  have hca : group c a = .eq := OrientedCmp.eq_symm hac
  cases ha : ranked a with
  | false =>
    rw [inGroup_of_unranked_left ha] at hleft ⊢
    cases hb : ranked b with
    | false =>
      rw [inGroup_of_unranked_left hb] at hright
      exact TransCmp.isLE_trans hleft hright
    | true =>
      cases hc : ranked c with
      | false =>
        rw [inGroup_of_unranked_right hc] at hright
        exact TransCmp.isLE_trans hleft hright
      | true =>
        rcases (isLE_of_ranked hb hc).mp hright with hfair | ⟨-, hage⟩
        · by_contra hgt
          have hless : (age c a).isLE := isLE_of_not_isLE hgt
          exact hinverted b (by simp) c (by simp) a (by simp)
            ⟨hb, hc, ha, hba, hca, hfair, hless, hleft⟩
        · exact TransCmp.isLE_trans hleft hage
  | true =>
    cases hc : ranked c with
    | false =>
      rw [inGroup_of_unranked_right hc] at hright ⊢
      cases hb : ranked b with
      | false =>
        rw [inGroup_of_unranked_right hb] at hleft
        exact TransCmp.isLE_trans hleft hright
      | true =>
        rcases (isLE_of_ranked ha hb).mp hleft with hfair | ⟨-, hage⟩
        · by_contra hgt
          have hless : (age c a).isLE := isLE_of_not_isLE hgt
          exact hinverted a (by simp) b (by simp) c (by simp)
            ⟨ha, hb, hc, hac, hbc, hfair, hright, hless⟩
        · exact TransCmp.isLE_trans hage hright
    | true =>
      rw [isLE_of_ranked ha hc]
      cases hb : ranked b with
      | false =>
        rw [inGroup_of_unranked_right hb] at hleft
        rw [inGroup_of_unranked_left hb] at hright
        have hage : (age a c).isLE := TransCmp.isLE_trans hleft hright
        cases hfair : fair a c with
        | lt => exact .inl rfl
        | eq => exact .inr ⟨rfl, hage⟩
        | gt =>
          exact absurd ⟨hc, ha, hb, hcb, hab, OrientedCmp.lt_of_gt hfair, hleft, hright⟩
            (hinverted c (by simp) a (by simp) b (by simp))
      | true =>
        rcases (isLE_of_ranked ha hb).mp hleft with hfirst | ⟨hfirst, hageLeft⟩
        · rcases (isLE_of_ranked hb hc).mp hright with hsecond | ⟨hsecond, -⟩
          · exact .inl (TransCmp.lt_trans hfirst hsecond)
          · exact .inl (TransCmp.lt_of_lt_of_eq hfirst hsecond)
        · rcases (isLE_of_ranked hb hc).mp hright with hsecond | ⟨hsecond, hageRight⟩
          · exact .inl (TransCmp.lt_of_eq_of_lt hfirst hsecond)
          · exact .inr ⟨TransCmp.eq_trans hfirst hsecond,
              TransCmp.isLE_trans hageLeft hageRight⟩

/-- On a list the comparison is transitive exactly when no three elements are inverted. -/
theorem mixedOrder_trans_iff [TransCmp group] [TransCmp fair] [TransCmp age] {items : List α} :
    (∀ a ∈ items, ∀ b ∈ items, ∀ c ∈ items, (mixedOrder group fair age ranked a b).isLE →
        (mixedOrder group fair age ranked b c).isLE →
          (mixedOrder group fair age ranked a c).isLE) ↔
      ∀ a ∈ items, ∀ b ∈ items, ∀ m ∈ items, ¬ Inverted group fair age ranked a b m := by
  constructor
  · intro htrans a ha b hb m hm h
    have hright : (mixedOrder group fair age ranked b m).isLE := by
      rw [mixedOrder_isLE_iff]
      exact .inr ⟨h.groupRight, by rw [inGroup_of_unranked_right h.middle]; exact h.ageRight⟩
    have hleft : (mixedOrder group fair age ranked m a).isLE := by
      rw [mixedOrder_isLE_iff]
      refine .inr ⟨OrientedCmp.eq_symm h.groupLeft, ?_⟩
      rw [inGroup_of_unranked_left h.middle]
      exact h.ageLeft
    have hback := htrans b hb m hm a ha hright hleft
    rw [mixedOrder_isLE_iff, isLE_of_ranked h.right h.left,
      @OrientedCmp.eq_swap α fair _ b a, h.fair] at hback
    have hgroup : group b a = .eq := TransCmp.eq_trans h.groupRight (OrientedCmp.eq_symm h.groupLeft)
    rw [hgroup] at hback
    simp at hback
  · intro hinverted a ha b hb c hc hleft hright
    rw [mixedOrder_isLE_iff] at hleft hright ⊢
    rcases hleft with hleft | ⟨hleft, hageLeft⟩
    · rcases hright with hright | ⟨hright, -⟩
      · exact .inl (TransCmp.lt_trans hleft hright)
      · exact .inl (TransCmp.lt_of_lt_of_eq hleft hright)
    · rcases hright with hright | ⟨hright, hageRight⟩
      · exact .inl (TransCmp.lt_of_eq_of_lt hleft hright)
      · refine .inr ⟨TransCmp.eq_trans hleft hright, ?_⟩
        refine inGroup_trans hleft hright ?_ hageLeft hageRight
        have hmem : ∀ x ∈ [a, b, c], x ∈ items := by simp [ha, hb, hc]
        intro x hx y hy m hm
        exact hinverted x (hmem x hx) y (hmem y hy) m (hmem m hm)

end CopyTrade.Foundation
