import CopyTrade.Foundation.MapTotals
import Mathlib.Algebra.BigOperators.Ring.Finset
import Mathlib.Algebra.Order.BigOperators.Group.List
import Mathlib.Algebra.Order.Field.Basic
import Mathlib.Tactic.FieldSimp
import Mathlib.Tactic.Linarith
import Mathlib.Tactic.Ring

/-!
# Quantities under keys

A map of quantities has a total, `sumOf`.  A quantity is spread over the entries of such a map
in proportion to what is stored under them: `spread q m` gives the key with weight `w` the share
`q * w / sumOf m`.  The shares add up to what is spread, and spreading the total gives every key
its own weight back.
-/

namespace CopyTrade.Foundation

open Std

variable {α K : Type} [Ord α] [TransOrd α] [LawfulEqOrd α] [DecidableEq α]
variable [Field K] [LinearOrder K] [IsStrictOrderedRing K]

def sumOf (m : ExtTreeMap α K) : K := total (fun _ quantity => quantity) m

def amount (m : ExtTreeMap α K) (k : α) : K := m[k]?.getD 0

def spread (quantity : K) (m : ExtTreeMap α K) : ExtTreeMap α K :=
  m.map fun _ weight => quantity * weight / sumOf m

omit [LawfulEqOrd α] [DecidableEq α] [LinearOrder K] [IsStrictOrderedRing K] in
@[simp] theorem sumOf_empty : sumOf (∅ : ExtTreeMap α K) = (0 : K) := rfl

variable {k : α} {m : ExtTreeMap α K}

section

omit [LawfulEqOrd α] [DecidableEq α] [LinearOrder K] [IsStrictOrderedRing K]

theorem amount_of_getElem? {v : K} (h : m[k]? = some v) : amount m k = v := by
  unfold amount
  rw [h, Option.getD_some]

theorem amount_of_getElem?_eq_none (h : m[k]? = none) : amount m k = (0 : K) := by
  unfold amount
  rw [h, Option.getD_none]

end

omit [LinearOrder K] [IsStrictOrderedRing K] in
theorem amount_insert (m : ExtTreeMap α K) (k a : α) (v : K) :
    amount (m.insert k v) a = if k = a then v else amount m a := by
  unfold amount
  rw [getElem?_insert_eq]
  split <;> rfl

omit [LawfulEqOrd α] [DecidableEq α] [LinearOrder K] [IsStrictOrderedRing K] in
theorem total_mul_left {β : Type} (c : K) (f : α → β → K) (m : ExtTreeMap α β) :
    total (fun k v => c * f k v) m = c * total f m :=
  List.sum_map_mul_left _ _ _

section

omit [LinearOrder K] [IsStrictOrderedRing K]

theorem sumOf_eq_amount_add (m : ExtTreeMap α K) (k : α) :
    sumOf m = amount m k + sumOf (m.erase k) := by
  refine (total_eq_share_add _ m k).trans ?_
  unfold amount sumOf
  cases m[k]? <;> rfl

theorem sumOf_of_agree {n : ExtTreeMap α K} (h : ∀ a, k ≠ a → n[a]? = m[a]?) :
    sumOf n = sumOf m + (amount n k - amount m k) := by
  have herase : n.erase k = m.erase k := by
    apply ExtTreeMap.ext_getElem?
    intro a
    rw [getElem?_erase_eq, getElem?_erase_eq]
    by_cases ha : k = a
    · rw [if_pos ha, if_pos ha]
    · rw [if_neg ha, if_neg ha, h a ha]
  rw [sumOf_eq_amount_add n k, sumOf_eq_amount_add m k, herase]
  ring

theorem sumOf_insert (m : ExtTreeMap α K) (k : α) (v : K) :
    sumOf (m.insert k v) = sumOf m + (v - amount m k) := by
  rw [sumOf_of_agree fun a ha => getElem?_insert_of_ne ha v, amount_insert, if_pos rfl]

theorem sumOf_eq_finset_sum (m : ExtTreeMap α K) {keys : Finset α} (h : ∀ k ∈ m.keys, k ∈ keys) :
    sumOf m = ∑ k ∈ keys, amount m k := by
  have hown : sumOf m = ∑ k ∈ m.keys.toFinset, amount m k := by
    rw [List.sum_toFinset _ ExtTreeMap.nodup_keys, ← ExtTreeMap.map_fst_toList_eq_keys,
      List.map_map]
    refine congrArg List.sum (List.map_congr_left ?_)
    rintro ⟨k, v⟩ hentry
    exact (amount_of_getElem? (ExtTreeMap.mem_toList_iff_getElem?_eq_some.mp hentry)).symm
  rw [hown]
  refine Finset.sum_subset (fun k hk => h k (List.mem_toFinset.mp hk)) fun k _ hk => ?_
  rw [List.mem_toFinset, ExtTreeMap.mem_keys] at hk
  exact amount_of_getElem?_eq_none (ExtTreeMap.getElem?_eq_none hk)

theorem sumOf_of_amounts {n moved : ExtTreeMap α K} {c : K}
    (h : ∀ k, amount n k = amount m k + c * amount moved k) :
    sumOf n = sumOf m + c * sumOf moved := by
  have hkeys : ∀ l ∈ [m.keys, n.keys, moved.keys], ∀ k ∈ l,
      k ∈ (m.keys ++ n.keys ++ moved.keys).toFinset := by
    simp only [List.forall_mem_cons, List.mem_toFinset, List.mem_append]
    exact ⟨fun k hk => .inl (.inl hk), fun k hk => .inl (.inr hk), fun k hk => .inr hk,
      List.forall_mem_nil _⟩
  simp only [List.forall_mem_cons] at hkeys
  rw [sumOf_eq_finset_sum m hkeys.1, sumOf_eq_finset_sum n hkeys.2.1,
    sumOf_eq_finset_sum moved hkeys.2.2.1, Finset.mul_sum, ← Finset.sum_add_distrib]
  exact Finset.sum_congr rfl fun k _ => h k

theorem sum_toList_ite (m : ExtTreeMap α K) (k : α) :
    (m.toList.map fun entry => if entry.1 = k then entry.2 else 0).sum = amount m k := by
  have hsplit := total_eq_share_add (fun (a : α) (v : K) => if a = k then v else 0) m k
  have hrest : total (fun (a : α) (v : K) => if a = k then v else 0) (m.erase k) = 0 := by
    have hzero : total (fun (a : α) (v : K) => if a = k then v else 0) (m.erase k) =
        total (fun (_ : α) (v : K) => 0 * v) (m.erase k) := by
      refine total_congr fun a v hget => ?_
      rw [getElem?_erase_eq] at hget
      split at hget
      · cases hget
      · rename_i hne
        rw [if_neg (Ne.symm hne), zero_mul]
    rw [hzero, total_mul_left, zero_mul]
  rw [hrest, add_zero] at hsplit
  refine hsplit.trans ?_
  unfold amount
  cases m[k]? with
  | none => rfl
  | some v => exact if_pos rfl

end

omit [LawfulEqOrd α] [DecidableEq α] [LinearOrder K] [IsStrictOrderedRing K] in
theorem sumOf_map {β : Type} (f : β → K) (m : ExtTreeMap α β) :
    sumOf (m.map fun _ v => f v) = total (fun _ v => f v) m := by
  unfold sumOf total
  rw [ExtTreeMap.toList_map, List.map_map]
  rfl

omit [DecidableEq α] in
theorem sumOf_pos {v : K} (hk : m[k]? = some v)
    (hpositive : ∀ (a : α) (w : K), m[a]? = some w → 0 < w) : (0 : K) < sumOf m := by
  have hmem : (k, v) ∈ m.toList := ExtTreeMap.mem_toList_iff_getElem?_eq_some.mpr hk
  refine List.sum_pos _ ?_ (by
    intro hnil
    rw [List.map_eq_nil_iff.mp hnil] at hmem
    cases hmem)
  intro quantity hquantity
  obtain ⟨⟨a, w⟩, hentry, rfl⟩ := List.mem_map.mp hquantity
  exact hpositive a w (ExtTreeMap.mem_toList_iff_getElem?_eq_some.mp hentry)

omit [DecidableEq α] [LinearOrder K] [IsStrictOrderedRing K] in
theorem getElem?_spread (quantity : K) (m : ExtTreeMap α K) (k : α) :
    (spread quantity m)[k]? = m[k]?.map fun weight => quantity * weight / sumOf m :=
  ExtTreeMap.getElem?_map

omit [LawfulEqOrd α] [DecidableEq α] [LinearOrder K] [IsStrictOrderedRing K] in
theorem sumOf_spread (quantity : K) (h : sumOf m ≠ (0 : K)) :
    sumOf (spread quantity m) = quantity := by
  unfold spread
  rw [sumOf_map (fun weight => quantity * weight / sumOf m)]
  have hshare : ∀ weight : K, quantity * weight / sumOf m = quantity / sumOf m * weight := by
    intro weight
    ring
  simp only [hshare]
  rw [total_mul_left]
  exact div_mul_cancel₀ quantity h

omit [DecidableEq α] [LinearOrder K] [IsStrictOrderedRing K] in
theorem spread_sumOf (h : sumOf m ≠ (0 : K)) : spread (sumOf m) m = m := by
  apply ExtTreeMap.ext_getElem?
  intro k
  rw [getElem?_spread]
  cases m[k]? with
  | none => rfl
  | some weight => exact congrArg some (mul_div_cancel_left₀ weight h)

end CopyTrade.Foundation
