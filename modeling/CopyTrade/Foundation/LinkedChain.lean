import CopyTrade.Foundation.Results
import Mathlib.Data.List.Forall2

/-!
# Chains of linked records

A reader goes through the records of a journal with a state that holds their number and the head of
the chain.  Its step is *binding* if the head that it leaves says which record was read, after how
many others and behind which head.  The last head of a journal then says all of its records.
-/

namespace CopyTrade.Foundation

variable {ε S H α : Type} {step : S → α → Except ε S} {count : S → ℕ} {head : S → H}
  {Same : α → α → Prop} {records records' : List α}

theorem count_of_foldlM (hcount : ∀ s a t, step s a = .ok t → count t = count s + 1) {s t : S}
    (h : records.foldlM step s = .ok t) : count t = count s + records.length := by
  induction records generalizing s with
  | nil =>
    rw [List.foldlM_nil, pure_eq_ok_iff] at h
    subst h
    rfl
  | cons a records ih =>
    obtain ⟨r, hfirst, hrest⟩ := foldlM_cons_eq_ok_iff.mp h
    rw [ih hrest, hcount s a r hfirst, List.length_cons]
    omega

/-- **A head commits to its journal.**  Two journals that a binding reader accepts under one head
hold the same records. -/
theorem forall₂_of_head_eq (hcount : ∀ s a t, step s a = .ok t → count t = count s + 1)
    (hbinding : ∀ a ∈ records, ∀ a' ∈ records', ∀ s s' t t', step s a = .ok t →
      step s' a' = .ok t' → head t = head t' →
        count s = count s' ∧ head s = head s' ∧ Same a a')
    {s t t' : S} (h : records.foldlM step s = .ok t) (h' : records'.foldlM step s = .ok t')
    (hhead : head t = head t') (hempty : records = [] ↔ records' = []) :
    List.Forall₂ Same records records' := by
  induction records using List.reverseRecOn generalizing records' t t' with
  | nil =>
    rw [hempty.mp rfl]
    exact List.Forall₂.nil
  | append_singleton records a ih =>
    rcases List.eq_nil_or_concat records' with rfl | ⟨records', a', rfl⟩
    · exact absurd (hempty.mpr rfl) (by simp)
    rw [List.concat_eq_append] at *
    obtain ⟨r, hr, ha⟩ := foldlM_snoc_eq_ok_iff.mp h
    obtain ⟨r', hr', ha'⟩ := foldlM_snoc_eq_ok_iff.mp h'
    obtain ⟨hcounts, hheads, hsame⟩ :=
      hbinding a (by simp) a' (by simp) r r' t t' ha ha' hhead
    have hlength : records.length = records'.length := by
      have hr := count_of_foldlM hcount hr
      have hr' := count_of_foldlM hcount hr'
      omega
    have hnil : records = [] ↔ records' = [] := by
      rw [← List.length_eq_zero_iff, hlength, List.length_eq_zero_iff]
    refine List.rel_append (ih ?_ hr hr' hheads hnil) (List.Forall₂.cons hsame List.Forall₂.nil)
    intro b hb b' hb'
    exact hbinding b (List.mem_append_left _ hb) b' (List.mem_append_left _ hb')

end CopyTrade.Foundation
