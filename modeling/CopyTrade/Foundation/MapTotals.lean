import CopyTrade.Foundation.Maps
import Mathlib.Algebra.BigOperators.Group.Finset.Basic

/-!
# Totals over an ordered map

`total f m` adds `f k v` up over the entries of a map.  Writing or removing one entry moves the
total by what that entry contributes, so a running total of a store is kept up one write at a
time (`total_put`).
-/

namespace CopyTrade.Foundation

open Std

variable {α β : Type} [Ord α] [TransOrd α] [LawfulEqOrd α] [DecidableEq α]

omit [LawfulEqOrd α] [DecidableEq α] in
theorem nodup_toList (m : ExtTreeMap α β) : m.toList.Nodup := by
  refine List.Pairwise.imp ?_ (ExtTreeMap.distinct_keys_toList (t := m))
  rintro a b hkeys rfl
  exact hkeys ReflCmp.compare_self

omit [LawfulEqOrd α] [DecidableEq α] in
theorem nodup_set_toList (s : ExtTreeSet α) : s.toList.Nodup := by
  refine List.Pairwise.imp ?_ (ExtTreeSet.distinct_toList (t := s))
  rintro a b hdistinct rfl
  exact hdistinct ReflCmp.compare_self

variable {m : ExtTreeMap α β}

omit [DecidableEq α] in
theorem toList_perm_of_getElem? {s : ExtTreeSet α} {f : α → β}
    (h : ∀ a, m[a]? = if a ∈ s then some (f a) else none) :
    m.toList.Perm (s.toList.map fun a => (a, f a)) := by
  have hnodup : (s.toList.map fun a => (a, f a)).Nodup := by
    refine (nodup_set_toList s).map ?_
    intro a b hsame
    exact congrArg Prod.fst hsame
  refine (List.perm_ext_iff_of_nodup (nodup_toList m) hnodup).mpr ?_
  rintro ⟨a, b⟩
  rw [ExtTreeMap.mem_toList_iff_getElem?_eq_some, h, List.mem_map]
  constructor
  · intro hentry
    split at hentry
    · rename_i hmem
      exact ⟨a, ExtTreeSet.mem_toList.mpr hmem, by rw [Option.some.inj hentry]⟩
    · cases hentry
  · rintro ⟨key, hkey, hpair⟩
    obtain ⟨rfl, rfl⟩ := Prod.mk.inj hpair
    rw [if_pos (ExtTreeSet.mem_toList.mp hkey)]

theorem toList_perm_cons_erase {k : α} {v : β} (h : m[k]? = some v) :
    m.toList.Perm ((k, v) :: (m.erase k).toList) := by
  have hfresh : (k, v) ∉ (m.erase k).toList := by
    rw [ExtTreeMap.mem_toList_iff_getElem?_eq_some, getElem?_erase_eq, if_pos rfl]
    simp
  refine (List.perm_ext_iff_of_nodup (nodup_toList m)
    (List.nodup_cons.mpr ⟨hfresh, nodup_toList _⟩)).mpr ?_
  rintro ⟨a, b⟩
  rw [List.mem_cons, ExtTreeMap.mem_toList_iff_getElem?_eq_some,
    ExtTreeMap.mem_toList_iff_getElem?_eq_some, getElem?_erase_eq, Prod.mk.injEq]
  by_cases ha : k = a
  · subst ha
    rw [h, if_pos rfl]
    simp [eq_comm]
  · rw [if_neg ha]
    simp [Ne.symm ha]

theorem erase_of_getElem?_eq_none {k : α} (h : m[k]? = none) : m.erase k = m := by
  apply ExtTreeMap.ext_getElem?
  intro a
  rw [getElem?_erase_eq]
  by_cases ha : k = a
  · rw [if_pos ha, ← ha, h]
  · rw [if_neg ha]

theorem erase_insert_self (m : ExtTreeMap α β) (k : α) (v : β) :
    (m.insert k v).erase k = m.erase k := by
  apply ExtTreeMap.ext_getElem?
  intro a
  simp only [getElem?_insert_eq, getElem?_erase_eq]
  split <;> rfl

theorem insert_erase_self (m : ExtTreeMap α β) (k : α) (v : β) :
    (m.erase k).insert k v = m.insert k v := by
  apply ExtTreeMap.ext_getElem?
  intro a
  simp only [getElem?_insert_eq, getElem?_erase_eq]
  split <;> rfl

def put (m : ExtTreeMap α β) (k : α) : Option β → ExtTreeMap α β
  | some v => m.insert k v
  | none => m.erase k

theorem getElem?_put (m : ExtTreeMap α β) (k a : α) (o : Option β) :
    (put m k o)[a]? = if k = a then o else m[a]? := by
  cases o with
  | none => exact getElem?_erase_eq m k a
  | some v => exact getElem?_insert_eq m k a v

@[simp] theorem getElem?_put_self (m : ExtTreeMap α β) (k : α) (o : Option β) :
    (put m k o)[k]? = o := by
  rw [getElem?_put, if_pos rfl]

theorem erase_put (m : ExtTreeMap α β) (k : α) (o : Option β) :
    (put m k o).erase k = m.erase k := by
  apply ExtTreeMap.ext_getElem?
  intro a
  simp only [getElem?_erase_eq, getElem?_put]
  split <;> rfl

section

variable {M : Type} [AddCommMonoid M]

def total (f : α → β → M) (m : ExtTreeMap α β) : M :=
  (m.toList.map fun entry => f entry.1 entry.2).sum

def share (f : α → β → M) (k : α) (o : Option β) : M :=
  o.elim 0 (f k)

section

omit [Ord α] [TransOrd α] [LawfulEqOrd α] [DecidableEq α]

@[simp] theorem share_none (f : α → β → M) (k : α) : share f k none = 0 := rfl

@[simp] theorem share_some (f : α → β → M) (k : α) (v : β) : share f k (some v) = f k v := rfl

end

omit [LawfulEqOrd α] [DecidableEq α] in
@[simp] theorem total_empty (f : α → β → M) : total f (∅ : ExtTreeMap α β) = 0 := rfl

theorem total_eq_share_add (f : α → β → M) (m : ExtTreeMap α β) (k : α) :
    total f m = share f k m[k]? + total f (m.erase k) := by
  cases h : m[k]? with
  | none => rw [erase_of_getElem?_eq_none h, share_none, zero_add]
  | some v =>
    unfold total
    rw [((toList_perm_cons_erase h).map _).sum_eq, List.map_cons, List.sum_cons, share_some]

theorem total_put (f : α → β → M) (m : ExtTreeMap α β) (k : α) (o : Option β) :
    total f (put m k o) = share f k o + total f (m.erase k) := by
  rw [total_eq_share_add f (put m k o) k, getElem?_put_self, erase_put]

omit [LawfulEqOrd α] [DecidableEq α] in
theorem total_add (f g : α → β → M) (m : ExtTreeMap α β) :
    total (fun k v => f k v + g k v) m = total f m + total g m :=
  List.sum_map_add

variable {m : ExtTreeMap α β}

omit [DecidableEq α] in
theorem total_eq_zero_of_forall_getElem? {f : α → β → M} (h : ∀ k : α, m[k]? = none) :
    total f m = 0 := by
  have hempty : m = ∅ := by
    apply ExtTreeMap.ext_getElem?
    intro k
    rw [h k, ExtTreeMap.getElem?_empty]
  rw [hempty, total_empty]

omit [DecidableEq α] in
theorem total_congr {f g : α → β → M} (h : ∀ (k : α) (v : β), m[k]? = some v → f k v = g k v) :
    total f m = total g m := by
  unfold total
  refine congrArg List.sum (List.map_congr_left ?_)
  rintro ⟨k, v⟩ hentry
  exact h k v (ExtTreeMap.mem_toList_iff_getElem?_eq_some.mp hentry)

/-- The total over a map as the sum over a set with all its keys: a key without a value adds nothing. -/
theorem total_eq_sum_getD {f : β → M} {default : β} (hf : f default = 0) {s : Finset α}
    (hs : ∀ (k : α) (v : β), m[k]? = some v → k ∈ s) :
    total (fun _ v => f v) m = ∑ k ∈ s, f (m[k]?.getD default) := by
  have hkeys : m.toList.map (fun entry => f entry.2) =
      m.keys.map fun k => f (m[k]?.getD default) := by
    rw [← ExtTreeMap.map_fst_toList_eq_keys, List.map_map]
    refine List.map_congr_left ?_
    rintro ⟨k, v⟩ hentry
    rw [Function.comp_apply, ExtTreeMap.mem_toList_iff_getElem?_eq_some.mp hentry, Option.getD_some]
  unfold total
  rw [hkeys, ← List.sum_toFinset _ ExtTreeMap.nodup_keys]
  refine Finset.sum_subset ?_ ?_
  · intro k hk
    rw [List.mem_toFinset, ExtTreeMap.mem_keys, mem_iff_exists] at hk
    obtain ⟨v, hv⟩ := hk
    exact hs k v hv
  · intro k _ hnot
    rw [List.mem_toFinset, ExtTreeMap.mem_keys, mem_iff_exists] at hnot
    cases hget : m[k]? with
    | none => exact hf
    | some v => exact absurd ⟨v, hget⟩ hnot

end

omit [DecidableEq α] in
theorem total_eq_total_of_getElem? {γ M : Type} [AddCommMonoid M] (f : α → β → M) (g : β → γ)
    (h : α → γ → M) {n : ExtTreeMap α γ} (hkeys : ∀ k : α, n[k]? = m[k]?.map g)
    (hf : ∀ (k : α) (v : β), m[k]? = some v → f k v = h k (g v)) : total f m = total h n := by
  have hmap : n = m.map fun _ v => g v := by
    apply ExtTreeMap.ext_getElem?
    intro k
    rw [hkeys, ExtTreeMap.getElem?_map]
  rw [total_congr (f := f) (g := fun k v => h k (g v)) hf, hmap]
  unfold total
  rw [ExtTreeMap.toList_map, List.map_map]
  rfl

end CopyTrade.Foundation
