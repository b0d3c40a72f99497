import Mathlib.Data.List.DropRight
import Mathlib.Order.Lattice

/-!
# The last elements of an increasing list

`List.rtake n l` is a window over the last `n` elements of a list that grows at its end.  In a
strictly increasing list an element is in the window exactly when fewer than `n` elements are
greater.
-/

namespace CopyTrade.Foundation

variable {α : Type*}

theorem rtake_snoc (n : ℕ) (l : List α) (a : α) : (l ++ [a]).rtake (n + 1) = l.rtake n ++ [a] :=
  List.rtake_concat_succ l n a

theorem rtake_of_length_le {n : ℕ} {l : List α} (h : l.length ≤ n) : l.rtake n = l := by
  unfold List.rtake
  rw [Nat.sub_eq_zero_of_le h, List.drop_zero]

theorem mem_of_mem_rtake {n : ℕ} {l : List α} {a : α} (h : a ∈ l.rtake n) : a ∈ l :=
  List.mem_of_mem_drop h

theorem getLast?_rtake {n : ℕ} (hn : 0 < n) (l : List α) : (l.rtake n).getLast? = l.getLast? := by
  obtain ⟨m, rfl⟩ := Nat.exists_eq_succ_of_ne_zero hn.ne'
  rcases List.eq_nil_or_concat l with rfl | ⟨front, last, rfl⟩
  · simp
  · rw [List.concat_eq_append, rtake_snoc, List.getLast?_concat, List.getLast?_concat]

theorem rtake_rtake {m n : ℕ} (h : m ≤ n) (l : List α) : (l.rtake n).rtake m = l.rtake m := by
  rw [List.rtake_eq_reverse_take_reverse, List.rtake_eq_reverse_take_reverse, List.reverse_reverse,
    List.take_take, min_eq_left h, List.rtake_eq_reverse_take_reverse]

theorem map_rtake {β : Type*} (f : α → β) (n : ℕ) (l : List α) :
    (l.rtake n).map f = (l.map f).rtake n := by
  unfold List.rtake
  rw [List.map_drop, List.length_map]

theorem mem_rtake_iff_of_nodup {n : ℕ} {l : List α} (hl : l.Nodup) {a : α} :
    a ∈ l.rtake n ↔ a ∈ l ∧ a ∉ l.take (l.length - n) := by
  have hsplit : l.take (l.length - n) ++ l.rtake n = l := List.take_append_drop _ l
  have hdisjoint : ∀ b ∈ l.take (l.length - n), b ∉ l.rtake n := by
    rw [← hsplit, List.nodup_append] at hl
    intro b hfront hback
    exact hl.2.2 b hfront b hback rfl
  constructor
  · intro hwindow
    exact ⟨mem_of_mem_rtake hwindow, fun hfront => hdisjoint a hfront hwindow⟩
  · rintro ⟨hmem, hfront⟩
    rw [← hsplit, List.mem_append] at hmem
    exact hmem.resolve_left hfront

variable [LinearOrder α]

/-- An element of a strictly increasing list is in the window exactly when fewer elements are
greater than the window has places. -/
theorem mem_rtake_iff {n : ℕ} {l : List α} (hl : l.Pairwise (· < ·)) {a : α} :
    a ∈ l.rtake n ↔ a ∈ l ∧ (l.filter (a < ·)).length < n := by
  induction l using List.reverseRecOn generalizing n with
  | nil => simp
  | append_singleton l b ih =>
    rw [List.pairwise_append] at hl
    obtain ⟨hl, -, hlast⟩ := hl
    have hless (c : α) (hc : c ∈ l) : c < b := hlast c hc b (List.mem_singleton_self b)
    cases n with
    | zero => simp
    | succ n =>
      rw [rtake_snoc, List.mem_append, ih hl, List.mem_append, List.mem_singleton,
        List.filter_append, List.length_append]
      by_cases hab : a = b
      · subst hab
        have hnone : l.filter (a < ·) = [] := by
          rw [List.filter_eq_nil_iff]
          intro c hc
          simpa using (hless c hc).le
        simp [hnone]
      · simp only [hab, or_false]
        constructor
        · rintro ⟨hmem, hcount⟩
          refine ⟨hmem, ?_⟩
          have hone := List.length_filter_le (fun c => decide (a < c)) [b]
          rw [List.length_singleton] at hone
          omega
        · rintro ⟨hmem, hcount⟩
          rw [List.filter_singleton, decide_eq_true (hless a hmem), cond_true,
            List.length_singleton] at hcount
          exact ⟨hmem, by omega⟩

end CopyTrade.Foundation
