import Mathlib.Data.Finset.Card
import Std.Data.ExtTreeMap
import Std.Data.ExtTreeSet

/-!
# Ordered maps and ordered sets

`Std.ExtTreeMap` and `Std.ExtTreeSet` are ordered and extensional.  The facts below
restate their insert and erase rules with key equality in place of `compare`.
-/

namespace CopyTrade.Foundation

open Std

section

variable {α β : Type} [Ord α] [TransOrd α] [LawfulEqOrd α] [DecidableEq α]

theorem getElem?_insert_eq (m : ExtTreeMap α β) (k a : α) (v : β) :
    (m.insert k v)[a]? = if k = a then some v else m[a]? := by
  rw [ExtTreeMap.getElem?_insert]
  simp only [LawfulEqOrd.compare_eq_iff_eq]

theorem getElem?_erase_eq (m : ExtTreeMap α β) (k a : α) :
    (m.erase k)[a]? = if k = a then none else m[a]? := by
  rw [ExtTreeMap.getElem?_erase]
  simp only [LawfulEqOrd.compare_eq_iff_eq]

theorem insert_insert_self (m : ExtTreeMap α β) (k : α) (v w : β) :
    (m.insert k v).insert k w = m.insert k w := by
  apply ExtTreeMap.ext_getElem?
  intro a
  simp only [getElem?_insert_eq]
  split <;> rfl

variable {k : α} {m : ExtTreeMap α β}

theorem insert_comm (m : ExtTreeMap α β) {l : α} (h : k ≠ l) (v w : β) :
    (m.insert k v).insert l w = (m.insert l w).insert k v := by
  apply ExtTreeMap.ext_getElem?
  intro a
  simp only [getElem?_insert_eq]
  by_cases hk : k = a
  · rw [if_pos hk, if_neg (fun hl => h (hk.trans hl.symm)), if_pos hk]
  · rw [if_neg hk, if_neg hk]

theorem erase_insert_comm (m : ExtTreeMap α β) {l : α} (h : k ≠ l) (v : β) :
    (m.insert k v).erase l = (m.erase l).insert k v := by
  apply ExtTreeMap.ext_getElem?
  intro a
  simp only [getElem?_insert_eq, getElem?_erase_eq]
  by_cases hk : k = a
  · rw [if_pos hk, if_neg (fun hl => h (hk.trans hl.symm)), if_pos hk]
  · rw [if_neg hk, if_neg hk]

theorem insert_of_getElem? {v : β} (h : m[k]? = some v) : m.insert k v = m := by
  apply ExtTreeMap.ext_getElem?
  intro a
  rw [getElem?_insert_eq]
  by_cases hk : k = a
  · rw [if_pos hk, ← hk, h]
  · rw [if_neg hk]

theorem insert_eq_self_iff {v : β} : m.insert k v = m ↔ m[k]? = some v := by
  constructor
  · intro hsame
    rw [← hsame, getElem?_insert_eq, if_pos rfl]
  · apply insert_of_getElem?

theorem getElem?_insert_of_ne {a : α} (h : k ≠ a) (v : β) : (m.insert k v)[a]? = m[a]? := by
  rw [getElem?_insert_eq, if_neg h]

omit [LawfulEqOrd α] [DecidableEq α] in
theorem contains_iff_exists (m : ExtTreeMap α β) (k : α) :
    m.contains k = true ↔ ∃ v, m[k]? = some v := by
  rw [ExtTreeMap.contains_eq_isSome_getElem?, Option.isSome_iff_exists]

omit [LawfulEqOrd α] [DecidableEq α] in
theorem mem_iff_exists (m : ExtTreeMap α β) (k : α) : k ∈ m ↔ ∃ v, m[k]? = some v := by
  rw [ExtTreeMap.mem_iff_contains, contains_iff_exists]

omit [DecidableEq α] in
theorem isEmpty_eq_false_iff_exists (m : ExtTreeMap α β) :
    m.isEmpty = false ↔ ∃ (k : α) (v : β), m[k]? = some v := by
  rw [← ExtTreeMap.isEmpty_toList, List.isEmpty_eq_false_iff_exists_mem]
  constructor
  · rintro ⟨⟨k, v⟩, hentry⟩
    exact ⟨k, v, ExtTreeMap.mem_toList_iff_getElem?_eq_some.mp hentry⟩
  · rintro ⟨k, v, hentry⟩
    exact ⟨(k, v), ExtTreeMap.mem_toList_iff_getElem?_eq_some.mpr hentry⟩

theorem ofList_toList (m : ExtTreeMap α β) : ExtTreeMap.ofList m.toList compare = m := by
  apply ExtTreeMap.ext_getElem?
  intro a
  cases hentry : m[a]? with
  | none =>
    refine ExtTreeMap.getElem?_ofList_of_contains_eq_false ?_
    rw [← Bool.not_eq_true, List.contains_iff_mem, List.mem_map]
    rintro ⟨⟨k, v⟩, hmem, rfl⟩
    rw [ExtTreeMap.mem_toList_iff_getElem?_eq_some, hentry] at hmem
    cases hmem
  | some v =>
    exact ExtTreeMap.getElem?_ofList_of_mem ReflCmp.compare_self ExtTreeMap.distinct_keys_toList
      (ExtTreeMap.mem_toList_iff_getElem?_eq_some.mpr hentry)

theorem mem_or_of_getElem?_insertMany {l : List (α × β)} {v : β} (h : (m.insertMany l)[k]? = some v) :
    (k, v) ∈ l ∨ m[k]? = some v := by
  induction l generalizing m with
  | nil => exact .inr (by simpa using h)
  | cons entry l ih =>
    rw [ExtTreeMap.insertMany_cons] at h
    rcases ih h with hmem | hentry
    · exact .inl (List.mem_cons_of_mem _ hmem)
    · rw [getElem?_insert_eq] at hentry
      split at hentry
      · rename_i hkey
        cases hentry
        exact .inl (hkey ▸ List.mem_cons_self)
      · exact .inr hentry

theorem mem_of_getElem?_ofList {l : List (α × β)} {v : β}
    (h : (ExtTreeMap.ofList l compare)[k]? = some v) : (k, v) ∈ l := by
  rw [ExtTreeMap.ofList_eq_insertMany_empty] at h
  rcases mem_or_of_getElem?_insertMany h with hmem | hempty
  · exact hmem
  · rw [ExtTreeMap.getElem?_empty] at hempty
    cases hempty

theorem size_eq_card {s : Finset α} (h : ∀ a, a ∈ m ↔ a ∈ s) : m.size = s.card := by
  have hkeys : m.keys.toFinset = s := by
    ext a
    rw [List.mem_toFinset, ExtTreeMap.mem_keys, h]
  rw [← hkeys, List.toFinset_card_of_nodup ExtTreeMap.nodup_keys, ExtTreeMap.length_keys]

omit [DecidableEq α] in
theorem getLast?_keys (hmem : k ∈ m) (hlast : ∀ a ∈ m, compare k a ≠ .lt) :
    m.keys.getLast? = some k := by
  have hkey : k ∈ m.keys := ExtTreeMap.mem_keys.mpr hmem
  have hne : m.keys ≠ [] := List.ne_nil_of_mem hkey
  have hsplit := List.dropLast_append_getLast hne
  have hordered := ExtTreeMap.ordered_keys (t := m)
  rw [← hsplit] at hordered hkey
  rw [List.getLast?_eq_getLast_of_ne_nil hne]
  rcases List.mem_append.mp hkey with hfront | hend
  · have hlt := (List.pairwise_append.mp hordered).2.2 k hfront _ (List.mem_singleton_self _)
    exact absurd hlt (hlast _ (ExtTreeMap.mem_keys.mp (List.getLast_mem hne)))
  · rw [List.mem_singleton.mp hend]

omit [LawfulEqOrd α] [DecidableEq α] in
theorem size_erase_lt (h : k ∈ m) : (m.erase k).size < m.size := by
  have hsize : m.size ≠ 0 := by
    intro hzero
    rw [← ExtTreeMap.eq_empty_iff_size_eq_zero] at hzero
    subst hzero
    exact absurd h ExtTreeMap.not_mem_empty
  rw [ExtTreeMap.size_erase, if_pos (ExtTreeMap.contains_iff_mem.mpr h)]
  omega

omit [DecidableEq α] in
theorem mem_set_insert (s : ExtTreeSet α) (k a : α) : a ∈ s.insert k ↔ k = a ∨ a ∈ s := by
  rw [ExtTreeSet.mem_insert]
  simp only [LawfulEqOrd.compare_eq_iff_eq]

omit [DecidableEq α] in
theorem mem_set_erase (s : ExtTreeSet α) (k a : α) : a ∈ s.erase k ↔ k ≠ a ∧ a ∈ s := by
  rw [ExtTreeSet.mem_erase]
  simp only [ne_eq, LawfulEqOrd.compare_eq_iff_eq]

theorem mem_set_ofList (l : List α) (a : α) : a ∈ ExtTreeSet.ofList l compare ↔ a ∈ l := by
  rw [ExtTreeSet.mem_ofList, List.contains_iff_mem]

theorem ofList_toList_set (s : ExtTreeSet α) : ExtTreeSet.ofList s.toList compare = s := by
  apply ExtTreeSet.ext_mem
  intro a
  rw [mem_set_ofList, ExtTreeSet.mem_toList]

theorem set_size_eq_card {s : ExtTreeSet α} {t : Finset α} (h : ∀ a, a ∈ s ↔ a ∈ t) :
    s.size = t.card := by
  have helements : s.toList.toFinset = t := by
    ext a
    rw [List.mem_toFinset, ExtTreeSet.mem_toList, h]
  have hnodup : s.toList.Nodup := by
    refine ExtTreeSet.distinct_toList.imp fun {a b} hne => ?_
    rintro rfl
    exact hne ReflCmp.compare_self
  rw [← helements, List.toFinset_card_of_nodup hnodup, ExtTreeSet.length_toList]

end

section

variable {ε α β γ : Type} [Ord α] [TransOrd α]

theorem values_eq_map_toList (m : ExtTreeMap α β) : m.values = m.toList.map Prod.snd := by
  obtain ⟨⟨quotient⟩⟩ := m
  induction quotient using Quotient.inductionOn with
  | h tree =>
    have hvalues : DTreeMap.Internal.Impl.values tree.inner =
        (DTreeMap.Internal.Impl.Const.toList tree.inner).map Prod.snd := by
      rw [DTreeMap.Internal.Impl.values_eq_map_snd,
        DTreeMap.Internal.Impl.Const.toList_eq_toListModel_map, List.map_map]
      rfl
    exact hvalues

theorem mem_values_iff [LawfulEqOrd α] {m : ExtTreeMap α β} {v : β} :
    v ∈ m.values ↔ ∃ k : α, m[k]? = some v := by
  rw [values_eq_map_toList, List.mem_map]
  constructor
  · rintro ⟨⟨k, _⟩, hentry, rfl⟩
    exact ⟨k, ExtTreeMap.mem_toList_iff_getElem?_eq_some.mp hentry⟩
  · rintro ⟨k, hentry⟩
    exact ⟨(k, v), ExtTreeMap.mem_toList_iff_getElem?_eq_some.mpr hentry, rfl⟩

/-- Rebuilding the values of a map in key order, stopping at the first error (the shape of a
`values_mut` loop with `?` in its body, or of a fallible `collect`). -/
def mapValuesM (f : α → β → Except ε γ) (m : ExtTreeMap α β) : Except ε (ExtTreeMap α γ) :=
  m.toList.foldlM (fun acc entry => do
    let value ← f entry.1 entry.2
    pure (acc.insert entry.1 value)) ∅

end

variable {α κ : Type} [DecidableEq κ] {key : α → κ}

/-- The values of a map into which every element of a list is put under its key. -/
def lastByKey (key : α → κ) (l : List α) : List α :=
  l.foldl (fun kept a => kept.filter (fun b => key b ≠ key a) ++ [a]) []

theorem lastByKey_snoc (l : List α) (a : α) :
    lastByKey key (l ++ [a]) = (lastByKey key l).filter (fun b => key b ≠ key a) ++ [a] := by
  unfold lastByKey
  rw [List.foldl_append, List.foldl_cons, List.foldl_nil]

theorem mem_lastByKey_iff {l : List α} {a : α} : a ∈ lastByKey key l ↔
    ∃ before after, l = before ++ a :: after ∧ ∀ b ∈ after, key b ≠ key a := by
  induction l using List.reverseRecOn with
  | nil => simp [lastByKey]
  | append_singleton l last ih =>
    rw [lastByKey_snoc, List.mem_append, List.mem_singleton, List.mem_filter, decide_eq_true_eq, ih]
    constructor
    · rintro (⟨⟨before, after, rfl, hafter⟩, hlast⟩ | rfl)
      · refine ⟨before, after ++ [last], by simp, fun b hb => ?_⟩
        rcases List.mem_append.mp hb with hb | hb
        · exact hafter b hb
        · rw [List.mem_singleton.mp hb]
          exact hlast.symm
      · exact ⟨l, [], rfl, by simp⟩
    · rintro ⟨before, after, hl, hafter⟩
      rcases List.eq_nil_or_concat after with rfl | ⟨front, end_, rfl⟩
      · exact .inr (List.append_inj_right' hl rfl |> List.singleton_inj.mp).symm
      · rw [List.concat_eq_append] at hl hafter
        rw [← List.cons_append, ← List.append_assoc] at hl
        obtain ⟨rfl, hend⟩ := List.append_inj' hl rfl
        obtain rfl := List.singleton_inj.mp hend
        refine .inl ⟨⟨before, front, rfl, fun b hb => hafter b (List.mem_append_left _ hb)⟩, ?_⟩
        exact (hafter last (by simp)).symm

theorem nodup_lastByKey (l : List α) : (lastByKey key l).Nodup := by
  induction l using List.reverseRecOn with
  | nil => exact List.nodup_nil
  | append_singleton l last ih =>
    rw [lastByKey_snoc, List.nodup_append]
    refine ⟨ih.filter _, List.nodup_singleton _, fun a ha b hb => ?_⟩
    rintro rfl
    rw [List.mem_singleton.mp hb] at ha
    simp at ha

end CopyTrade.Foundation
