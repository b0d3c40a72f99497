import CopyTrade.Foundation.Maps
import CopyTrade.Foundation.Results

/-!
# Loops that fill a map

Loops that insert one entry for every key of a list, or for some entries of another map: what the
map has under a key once the loop is done.
-/

namespace CopyTrade.Foundation

open Std

variable {α β γ ε : Type} [Ord α] [TransOrd α] [LawfulEqOrd α] [DecidableEq α]

theorem getElem?_foldlM_insert {f : α → Except ε β} {keys : List α} {m filled : ExtTreeMap α β}
    (h : keys.foldlM (fun m key => do
      let value ← f key
      pure (m.insert key value)) m = .ok filled) (key : α) :
    (key ∈ keys → ∃ value, f key = .ok value ∧ filled[key]? = some value) ∧
      (key ∉ keys → filled[key]? = m[key]?) := by
  induction keys generalizing m with
  | nil =>
    rw [List.foldlM_nil, pure_eq_ok_iff] at h
    subst h
    simp
  | cons first rest ih =>
    obtain ⟨middle, hmiddle, hrest⟩ := foldlM_cons_eq_ok_iff.mp h
    obtain ⟨value, hvalue, hmiddle⟩ := of_bind hmiddle
    rw [pure_eq_ok_iff] at hmiddle
    subst hmiddle
    obtain ⟨hvisited, hleft⟩ := ih hrest
    by_cases hmem : key ∈ rest
    · refine ⟨fun _ => hvisited hmem, fun hnot => ?_⟩
      exact absurd (List.mem_cons_of_mem first hmem) hnot
    · have hkept := hleft hmem
      rw [getElem?_insert_eq] at hkept
      constructor
      · intro hkey
        rcases List.mem_cons.mp hkey with rfl | hkey
        · rw [if_pos rfl] at hkept
          exact ⟨value, hvalue, hkept⟩
        · exact absurd hkey hmem
      · intro hnot
        rw [List.mem_cons, not_or] at hnot
        rwa [if_neg (Ne.symm hnot.1)] at hkept

/-- A loop that inserts the two values a fallible function gives for every key. -/
theorem getElem?_foldlM_insert_pair {f : α → Except ε (β × γ)} {keys : List α}
    {m lastM : ExtTreeMap α β} {n lastN : ExtTreeMap α γ}
    (h : keys.foldlM (fun (acc : ExtTreeMap α β × ExtTreeMap α γ) key => do
      let (first, second) ← f key
      pure (acc.1.insert key first, acc.2.insert key second)) (m, n) = .ok (lastM, lastN))
    (key : α) :
    (key ∈ keys → ∃ first second, f key = .ok (first, second) ∧ lastM[key]? = some first ∧
        lastN[key]? = some second) ∧
      (key ∉ keys → lastM[key]? = m[key]? ∧ lastN[key]? = n[key]?) := by
  induction keys generalizing m n with
  | nil =>
    rw [List.foldlM_nil, pure_eq_ok_iff] at h
    cases h
    simp
  | cons head rest ih =>
    obtain ⟨middle, hmiddle, hrest⟩ := foldlM_cons_eq_ok_iff.mp h
    obtain ⟨⟨first, second⟩, hvalue, hmiddle⟩ := of_bind hmiddle
    rw [pure_eq_ok_iff] at hmiddle
    subst hmiddle
    obtain ⟨hvisited, hleft⟩ := ih hrest
    by_cases hmem : key ∈ rest
    · refine ⟨fun _ => hvisited hmem, fun hnot => ?_⟩
      exact absurd (List.mem_cons_of_mem head hmem) hnot
    · obtain ⟨hfirst, hsecond⟩ := hleft hmem
      rw [getElem?_insert_eq] at hfirst hsecond
      constructor
      · intro hkey
        rcases List.mem_cons.mp hkey with rfl | hkey
        · rw [if_pos rfl] at hfirst hsecond
          exact ⟨first, second, hvalue, hfirst, hsecond⟩
        · exact absurd hkey hmem
      · intro hnot
        rw [List.mem_cons, not_or] at hnot
        rw [if_neg (Ne.symm hnot.1)] at hfirst hsecond
        exact ⟨hfirst, hsecond⟩

theorem getElem?_foldl_insert (g : α → β) (keys : List α) (m : ExtTreeMap α β) (key : α) :
    (keys.foldl (fun m key => m.insert key (g key)) m)[key]? =
      if key ∈ keys then some (g key) else m[key]? := by
  induction keys generalizing m with
  | nil => simp
  | cons first rest ih =>
    rw [List.foldl_cons, ih, getElem?_insert_eq]
    by_cases hrest : key ∈ rest
    · simp [hrest]
    · by_cases hfirst : first = key
      · simp [hfirst]
      · simp [hrest, hfirst, Ne.symm hfirst]

omit [LawfulEqOrd α] [DecidableEq α] in
theorem foldlM_insert_eq_ok {T : Type} {f : α → Except ε (β × γ)} (g : α → β × γ)
    (next : T → α → γ → T) {keys : List α} (h : ∀ key ∈ keys, f key = .ok (g key))
    (state : ExtTreeMap α β × T) :
    keys.foldlM (fun (acc : ExtTreeMap α β × T) key => do
        let (value, second) ← f key
        pure (acc.1.insert key value, next acc.2 key second)) state =
      .ok (keys.foldl (fun m key => m.insert key (g key).1) state.1,
        keys.foldl (fun t key => next t key (g key).2) state.2) := by
  induction keys generalizing state with
  | nil => rfl
  | cons key keys ih =>
    rw [List.forall_mem_cons] at h
    rw [List.foldlM_cons, h.1, ok_bind]
    exact ih h.2 _

theorem getElem?_foldl_insert_if {p : β → Prop} [DecidablePred p] {g : β → γ}
    (source : ExtTreeMap α β) (m : ExtTreeMap α γ) (key : α) :
    (source.toList.foldl (fun m entry =>
      if p entry.2 then m.insert entry.1 (g entry.2) else m) m)[key]? =
      match source[key]? with
      | some value => if p value then some (g value) else m[key]?
      | none => m[key]? := by
  have hloop (entries : List (α × β)) (hnodup : (entries.map Prod.fst).Nodup)
      (m : ExtTreeMap α γ) :
      (∀ value, (key, value) ∈ entries → (entries.foldl (fun m entry =>
        if p entry.2 then m.insert entry.1 (g entry.2) else m) m)[key]? =
          if p value then some (g value) else m[key]?) ∧
      (key ∉ entries.map Prod.fst → (entries.foldl (fun m entry =>
        if p entry.2 then m.insert entry.1 (g entry.2) else m) m)[key]? = m[key]?) := by
    induction entries generalizing m with
    | nil => simp
    | cons entry entries ih =>
      rw [List.map_cons, List.nodup_cons] at hnodup
      obtain ⟨hvisited, hleft⟩ := ih hnodup.2 (if p entry.2 then m.insert entry.1 (g entry.2) else m)
      rw [List.foldl_cons]
      constructor
      · intro value hvalue
        rcases List.mem_cons.mp hvalue with rfl | hvalue
        · rw [hleft hnodup.1]
          split
          · rw [getElem?_insert_eq, if_pos rfl]
          · rfl
        · rw [hvisited value hvalue]
          have hne : entry.1 ≠ key := fun heq =>
            hnodup.1 (heq ▸ List.mem_map_of_mem (f := Prod.fst) hvalue)
          split
          · rfl
          · split
            · rw [getElem?_insert_of_ne hne]
            · rfl
      · intro hnot
        rw [List.map_cons, List.mem_cons, not_or] at hnot
        rw [hleft hnot.2]
        split
        · rw [getElem?_insert_of_ne (Ne.symm hnot.1)]
        · rfl
  have hnodup : (source.toList.map Prod.fst).Nodup := by
    rw [ExtTreeMap.map_fst_toList_eq_keys]
    exact ExtTreeMap.nodup_keys
  obtain ⟨hvisited, hleft⟩ := hloop source.toList hnodup m
  cases hget : source[key]? with
  | some value =>
    exact hvisited value (ExtTreeMap.mem_toList_iff_getElem?_eq_some.mpr hget)
  | none =>
    refine hleft ?_
    rw [ExtTreeMap.map_fst_toList_eq_keys, ExtTreeMap.mem_keys, ExtTreeMap.mem_iff_contains,
      ExtTreeMap.contains_eq_isSome_getElem?, hget]
    simp

/-- A loop over a map that computes a new value for each entry, where no entry is refused. -/
theorem mapValuesM_eq_ok {f : α → β → Except ε γ} {g : β → γ} {m : ExtTreeMap α β}
    (h : ∀ (key : α) (value : β), m[key]? = some value → f key value = .ok (g value)) :
    ∃ next, mapValuesM f m = .ok next ∧ ∀ key : α, next[key]? = m[key]?.map g := by
  have hloop (entries : List (α × β)) (hentries : ∀ entry ∈ entries, f entry.1 entry.2 =
      .ok (g entry.2)) (acc : ExtTreeMap α γ) :
      entries.foldlM (fun acc entry => do
          let value ← f entry.1 entry.2
          pure (acc.insert entry.1 value)) acc =
        .ok (entries.foldl (fun acc entry =>
          if True then acc.insert entry.1 (g entry.2) else acc) acc) := by
    induction entries generalizing acc with
    | nil => rfl
    | cons entry entries ih =>
      rw [List.forall_mem_cons] at hentries
      rw [List.foldlM_cons, hentries.1, ok_bind, List.foldl_cons, if_pos trivial]
      exact ih hentries.2 _
  refine ⟨_, hloop m.toList (fun entry hentry => ?_) ∅, fun key => ?_⟩
  · exact h _ _ (ExtTreeMap.mem_toList_iff_getElem?_eq_some.mp hentry)
  · rw [getElem?_foldl_insert_if (p := fun _ => True)]
    cases m[key]? with
    | none => exact ExtTreeMap.getElem?_empty
    | some value => exact if_pos trivial

end CopyTrade.Foundation
