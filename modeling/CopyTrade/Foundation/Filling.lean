import Mathlib.Algebra.Order.BigOperators.Group.List
import Mathlib.Tactic.Linarith
import Mathlib.Tactic.Ring

/-!
# Filling a demand from a list of offers

An offer is a cost per unit and the amount there is of it.  `fill wanted offers` takes what is
wanted from the front of the list.  It takes the lesser of the demand and the supply (`sum_fill`),
and where the costs ascend no other split of the same amount over the offers costs less
(`worth_fill_le`).
-/

namespace CopyTrade.Foundation

variable {K : Type*} [Field K]

def supply (offers : List (K × K)) : K := (offers.map Prod.snd).sum

def worth : List (K × K) → List K → K
  | offer :: offers, amount :: amounts => amount * offer.1 + worth offers amounts
  | _, _ => 0

variable {amounts : List K} {offers : List (K × K)} {wanted : K}

theorem worth_append (h : amounts.length = offers.length) (more : List (K × K)) (others : List K) :
    worth (offers ++ more) (amounts ++ others) = worth offers amounts + worth more others := by
  induction offers generalizing amounts with
  | nil =>
    rw [List.length_nil, List.length_eq_zero_iff] at h
    subst h
    simp [worth]
  | cons offer offers ih =>
    cases amounts with
    | nil => cases h
    | cons amount amounts =>
      rw [List.length_cons, List.length_cons, Nat.succ_inj] at h
      rw [List.cons_append, List.cons_append, worth, ih h, worth, add_assoc]

variable [LinearOrder K]

def fill (wanted : K) : List (K × K) → List K
  | [] => []
  | offer :: offers => min wanted offer.2 :: fill (wanted - min wanted offer.2) offers

def Split (offers : List (K × K)) (amounts : List K) : Prop :=
  List.Forall₂ (fun offer amount => 0 ≤ amount ∧ amount ≤ offer.2) offers amounts

def Offered (offers : List (K × K)) : Prop := ∀ offer ∈ offers, 0 ≤ offer.2

theorem Offered.tail {offer : K × K} (h : Offered (offer :: offers)) :
    Offered offers := fun other hother => h other (List.mem_cons_of_mem _ hother)

theorem fill_append (wanted : K) (offers more : List (K × K)) :
    fill wanted (offers ++ more) =
      fill wanted offers ++ fill (wanted - (fill wanted offers).sum) more := by
  induction offers generalizing wanted with
  | nil => simp [fill]
  | cons offer offers ih =>
    rw [List.cons_append, fill, ih, fill, List.cons_append, List.sum_cons, sub_sub]

theorem length_fill (wanted : K) (offers : List (K × K)) :
    (fill wanted offers).length = offers.length := by
  induction offers generalizing wanted with
  | nil => rfl
  | cons offer offers ih => rw [fill, List.length_cons, ih, List.length_cons]

theorem worth_fill_zero (h : Offered offers) : worth offers (fill 0 offers) = 0 := by
  induction offers with
  | nil => rfl
  | cons offer offers ih =>
    have hoffer : 0 ≤ offer.2 := h offer List.mem_cons_self
    rw [fill, min_eq_left hoffer, sub_self, worth, ih h.tail, zero_mul, add_zero]

variable [IsStrictOrderedRing K]

theorem supply_nonneg (h : Offered offers) : 0 ≤ supply offers := by
  apply List.sum_nonneg
  intro amount hamount
  obtain ⟨offer, hoffer, rfl⟩ := List.mem_map.mp hamount
  exact h offer hoffer

theorem sum_fill (hwanted : 0 ≤ wanted) (h : Offered offers) :
    (fill wanted offers).sum = min wanted (supply offers) := by
  induction offers generalizing wanted with
  | nil => simp [fill, supply, min_eq_right hwanted]
  | cons offer offers ih =>
    have hrest := supply_nonneg h.tail
    have hsupply : supply (offer :: offers) = offer.2 + supply offers := by simp [supply]
    have hleft : 0 ≤ wanted - min wanted offer.2 := by
      have := min_le_left wanted offer.2
      linarith
    rw [fill, List.sum_cons, ih hleft h.tail, hsupply]
    rcases le_total wanted offer.2 with hle | hle
    · rw [min_eq_left hle, sub_self, min_eq_left hrest, min_eq_left (by linarith), add_zero]
    · rw [min_eq_right hle]
      rcases le_total (wanted - offer.2) (supply offers) with hless | hless
      · rw [min_eq_left hless, min_eq_left (by linarith)]
        ring
      · rw [min_eq_right hless, min_eq_right (by linarith)]

theorem split_fill (hwanted : 0 ≤ wanted) (h : Offered offers) :
    Split offers (fill wanted offers) := by
  induction offers generalizing wanted with
  | nil => exact List.Forall₂.nil
  | cons offer offers ih =>
    have hoffer : 0 ≤ offer.2 := h offer List.mem_cons_self
    have hleft : 0 ≤ wanted - min wanted offer.2 := by
      have := min_le_left wanted offer.2
      linarith
    exact List.Forall₂.cons ⟨le_min hwanted hoffer, min_le_right _ _⟩ (ih hleft h.tail)

theorem fill_min (hwanted : 0 ≤ wanted) (h : Offered offers) :
    fill (min wanted (supply offers)) offers = fill wanted offers := by
  induction offers generalizing wanted with
  | nil => rfl
  | cons offer offers ih =>
    have hrest := supply_nonneg h.tail
    have hsupply : supply (offer :: offers) = offer.2 + supply offers := by simp [supply]
    have hhead : min (min wanted (supply (offer :: offers))) offer.2 = min wanted offer.2 := by
      rw [hsupply, min_assoc, min_eq_right (by linarith : offer.2 ≤ offer.2 + supply offers)]
    have hleft : 0 ≤ wanted - min wanted offer.2 := by
      have := min_le_left wanted offer.2
      linarith
    have htail : min wanted (supply (offer :: offers)) - min wanted offer.2 =
        min (wanted - min wanted offer.2) (supply offers) := by
      rw [hsupply]
      rcases le_total wanted offer.2 with hle | hle
      · rw [min_eq_left hle, sub_self, min_eq_left hrest, min_eq_left (by linarith), sub_self]
      · rw [min_eq_right hle]
        rcases le_total (wanted - offer.2) (supply offers) with hless | hless
        · rw [min_eq_left hless, min_eq_left (by linarith)]
        · rw [min_eq_right hless, min_eq_right (by linarith), add_sub_cancel_left]
    rw [fill, fill, hhead, htail, ih hleft h.tail]

theorem worth_fill_front {first others : List (K × K)} (hwanted : 0 ≤ wanted)
    (hfirst : Offered first) (hothers : Offered others) :
    worth (first ++ others) (fill (fill wanted first).sum (first ++ others)) =
        worth first (fill wanted first) ∧
      (fill (fill wanted first).sum (first ++ others)).sum = (fill wanted first).sum := by
  have hsame : fill (fill wanted first).sum first = fill wanted first := by
    rw [sum_fill hwanted hfirst, fill_min hwanted hfirst]
  rw [fill_append, hsame, sub_self]
  constructor
  · rw [worth_append (length_fill _ _), worth_fill_zero hothers, add_zero]
  · rw [List.sum_append, sum_fill le_rfl hothers, min_eq_left (supply_nonneg hothers), add_zero]

theorem le_worth (hsplit : Split offers amounts) {cost : K}
    (hcost : ∀ offer ∈ offers, cost ≤ offer.1) : amounts.sum * cost ≤ worth offers amounts := by
  induction hsplit with
  | nil => simp [worth]
  | @cons offer amount offers amounts hamount _ ih =>
    have hhead := mul_le_mul_of_nonneg_left (hcost offer List.mem_cons_self) hamount.1
    have htail := ih fun other hother => hcost other (List.mem_cons_of_mem _ hother)
    rw [List.sum_cons, worth, add_mul]
    linarith

theorem worth_le (hsplit : Split offers amounts) {cost : K}
    (hcost : ∀ offer ∈ offers, offer.1 ≤ cost) : worth offers amounts ≤ amounts.sum * cost := by
  induction hsplit with
  | nil => simp [worth]
  | @cons offer amount offers amounts hamount _ ih =>
    have hhead := mul_le_mul_of_nonneg_left (hcost offer List.mem_cons_self) hamount.1
    have htail := ih fun other hother => hcost other (List.mem_cons_of_mem _ hother)
    rw [List.sum_cons, worth, add_mul]
    linarith

/-- A split takes something of more than one offer at most as far as the costs ascend: it costs no
less than the fill, and at least the first cost for every unit it takes on top of it. -/
theorem worth_fill_add_le (h : Offered offers)
    (hsorted : offers.Pairwise fun first second => first.1 ≤ second.1) {excess cost : K}
    (hwanted : 0 ≤ wanted) (hexcess : 0 ≤ excess) (hcost : ∀ offer ∈ offers, cost ≤ offer.1)
    (hsplit : Split offers amounts) (hsum : amounts.sum = excess + (fill wanted offers).sum) :
    excess * cost + worth offers (fill wanted offers) ≤ worth offers amounts := by
  induction hsplit generalizing wanted excess cost with
  | nil =>
    have hzero : excess = 0 := by simpa [fill] using hsum.symm
    simp [worth, hzero]
  | @cons offer amount offers amounts hamount hsplit ih =>
    rw [List.pairwise_cons] at hsorted
    have hfirst := hcost offer List.mem_cons_self
    have hleft : 0 ≤ wanted - min wanted offer.2 := by
      have := min_le_left wanted offer.2
      linarith
    rw [fill, List.sum_cons, List.sum_cons] at hsum
    rw [fill, worth, worth]
    -- what the split takes of the later offers, over what the fill takes of them
    by_cases hlater : 0 ≤ excess + min wanted offer.2 - amount
    · have hrest := ih h.tail hsorted.2 hleft hlater hsorted.1 (by linarith)
      have hextra := mul_le_mul_of_nonneg_left hfirst hexcess
      linarith
    · rw [not_le] at hlater
      have hall : min wanted offer.2 = wanted := by
        apply min_eq_left
        by_contra hmore
        rw [min_eq_right (not_le.mp hmore).le] at hlater
        linarith [hamount.2]
      rw [hall, sub_self, sum_fill le_rfl h.tail, min_eq_left (supply_nonneg h.tail)] at hsum
      have hnonneg : 0 ≤ amounts.sum := by
        apply List.sum_nonneg
        intro other hother
        obtain ⟨i, hi, rfl⟩ := List.mem_iff_getElem.mp hother
        exact ((List.forall₂_iff_get.mp hsplit).2 i (hsplit.length_eq ▸ hi) hi).1
      rw [hall] at hlater
      linarith

/-- **The fill is the cheapest split** of what it takes, where the costs ascend. -/
theorem worth_fill_le (h : Offered offers)
    (hsorted : offers.Pairwise fun first second => first.1 ≤ second.1) (hwanted : 0 ≤ wanted)
    (hsplit : Split offers amounts) (hsum : amounts.sum = (fill wanted offers).sum) :
    worth offers (fill wanted offers) ≤ worth offers amounts := by
  cases offers with
  | nil =>
    cases hsplit
    exact le_rfl
  | cons offer offers =>
    have hcost : ∀ other ∈ offer :: offers, offer.1 ≤ other.1 := by
      intro other hother
      rcases List.mem_cons.mp hother with rfl | hother
      · exact le_rfl
      · exact (List.pairwise_cons.mp hsorted).1 other hother
    have hbound := worth_fill_add_le h hsorted hwanted le_rfl hcost hsplit (by rw [hsum, zero_add])
    rwa [zero_mul, zero_add] at hbound

end CopyTrade.Foundation
