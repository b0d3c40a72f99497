import Mathlib.Data.List.Chain
import Mathlib.Tactic.FieldSimp
import Mathlib.Tactic.Linarith

/-!
# Falls of a history

A fall is the loss from an earlier level of a history to a later one as a fraction of the earlier.
A watch that carries the highest level so far and the worst fall it has seen finds the greatest of
the falls it looks at; it misses one of the others exactly when that is greater.
-/

namespace CopyTrade.Foundation

variable {α K : Type*} [Field K]

/-- The loss from an earlier level to a later one, as a fraction of the earlier. -/
def fall (earlier later : K) : K := (earlier - later) / earlier

/-- The falls of a history to the points where `p` holds. -/
def falls (level : α → K) (p : α → Prop) (history : List α) : Set K :=
  {loss | ∃ (i j : ℕ) (x y : α), i ≤ j ∧ history[i]? = some x ∧ history[j]? = some y ∧ p y ∧
    loss = fall (level x) (level y)}

variable {level : α → K} {p q : α → Prop} {history : List α}

theorem fall_self (a : K) : fall a a = 0 := by
  rw [fall, sub_self, zero_div]

theorem mem_falls_snoc {y : α} {loss : K} :
    loss ∈ falls level p (history ++ [y]) ↔ loss ∈ falls level p history ∨
      p y ∧ ∃ x ∈ history ++ [y], loss = fall (level x) (level y) := by
  constructor
  · rintro ⟨i, j, x, z, hij, hx, hz, hp, hloss⟩
    rcases lt_trichotomy j history.length with hj | hj | hj
    · rw [List.getElem?_append_left hj] at hz
      rw [List.getElem?_append_left (lt_of_le_of_lt hij hj)] at hx
      exact .inl ⟨i, j, x, z, hij, hx, hz, hp, hloss⟩
    · subst hj
      rw [List.getElem?_concat_length] at hz
      obtain rfl := Option.some.inj hz
      exact .inr ⟨hp, x, List.mem_of_getElem? hx, hloss⟩
    · rw [List.getElem?_eq_none (by simp; omega)] at hz
      cases hz
  · rintro (⟨i, j, x, z, hij, hx, hz, hp, hloss⟩ | ⟨hp, x, hx, hloss⟩)
    · refine ⟨i, j, x, z, hij, ?_, ?_, hp, hloss⟩
      · rw [List.getElem?_append_left (List.getElem?_eq_some_iff.mp hx).1]
        exact hx
      · rw [List.getElem?_append_left (List.getElem?_eq_some_iff.mp hz).1]
        exact hz
    · obtain ⟨i, hi, hget⟩ := List.getElem_of_mem hx
      refine ⟨i, history.length, x, y, ?_, ?_, List.getElem?_concat_length, hp, hloss⟩
      · rw [List.length_append, List.length_singleton] at hi
        omega
      · rw [List.getElem?_eq_getElem hi, hget]

theorem falls_map {β : Type*} (level : α → K) (p : α → Prop) (f : β → α) (l : List β) :
    falls level p (l.map f) = falls (level ∘ f) (p ∘ f) l := by
  ext loss
  constructor
  · rintro ⟨i, j, x, y, hij, hx, hy, hp, hloss⟩
    rw [List.getElem?_map, Option.map_eq_some_iff] at hx hy
    obtain ⟨x, hx, rfl⟩ := hx
    obtain ⟨y, hy, rfl⟩ := hy
    exact ⟨i, j, x, y, hij, hx, hy, hp, hloss⟩
  · rintro ⟨i, j, x, y, hij, hx, hy, hp, hloss⟩
    refine ⟨i, j, f x, f y, hij, ?_, ?_, hp, hloss⟩
    · rw [List.getElem?_map, hx, Option.map_some]
    · rw [List.getElem?_map, hy, Option.map_some]

variable [LinearOrder K]

/-- What a watch over a history has: the highest level and the worst fall to a point where `p`
holds. -/
structure Watched (level : α → K) (p : α → Prop) (history : List α) (peak : Option K)
    (worst : K) : Prop where
  reached : ∀ top ∈ peak, ∃ x ∈ history, level x = top
  covers : ∀ x ∈ history, ∃ top ∈ peak, level x ≤ top
  greatest : IsGreatest (insert 0 (falls level p history)) worst

theorem watched_nil : Watched level p [] none 0 where
  reached := by simp
  covers := by simp
  greatest := by simp [falls]

/-- **What a watch misses.**  The points where neither `p` nor `q` holds repeat the level of a point
just before them where `p` holds.  Then the worst fall to the points of `p` is the worst of all
exactly when some fall to a point of `p` is at least as great as each one to a point of `q`. -/
theorem isGreatest_falls_iff {worst : K}
    (hworst : IsGreatest (insert 0 (falls level p history)) worst)
    (hrepeats : history.IsChain fun x y => p y ∨ q y ∨ p x ∧ level x = level y)
    (hhead : ∀ y ∈ history.head?, p y ∨ q y) :
    IsGreatest (insert 0 (falls level (fun _ => True) history)) worst ↔
      ∀ loss ∈ falls level q history, 0 < loss → ∃ seen ∈ falls level p history, loss ≤ seen := by
  constructor
  · rintro ⟨-, hbound⟩ loss ⟨i, j, x, y, hij, hx, hy, -, hloss⟩ hpositive
    have hle : loss ≤ worst := hbound (.inr ⟨i, j, x, y, hij, hx, hy, trivial, hloss⟩)
    rcases hworst.1 with hzero | hmem
    · exact absurd (hle.trans hzero.le) (not_le.mpr hpositive)
    · exact ⟨worst, hmem, hle⟩
  · intro hseen
    have hp : ∀ {loss}, loss ∈ falls level p history → loss ≤ worst := fun h => hworst.2 (.inr h)
    refine ⟨hworst.1.imp_right fun ⟨i, j, x, y, hij, hx, hy, _, hloss⟩ =>
      ⟨i, j, x, y, hij, hx, hy, trivial, hloss⟩, ?_⟩
    rintro loss (rfl | ⟨i, j, x, y, hij, hx, hy, -, hloss⟩)
    · exact hworst.2 (.inl rfl)
    -- the point is one of `p`, one of `q`, or it repeats the point before it
    have hkinds : p y ∨ q y ∨ ∃ k z, j = k + 1 ∧ history[k]? = some z ∧ p z ∧ level z = level y := by
      cases j with
      | zero =>
        rw [← List.head?_eq_getElem?] at hy
        exact (hhead y hy).imp_right .inl
      | succ k =>
        obtain ⟨hk, rfl⟩ := List.getElem?_eq_some_iff.mp hy
        refine (List.isChain_iff_getElem.mp hrepeats k hk).imp_right (Or.imp_right fun h => ?_)
        exact ⟨k, history[k], rfl, List.getElem?_eq_getElem _, h⟩
    rcases hkinds with hy' | hy' | ⟨k, z, rfl, hz, hpz, hlevel⟩
    · exact hp ⟨i, j, x, y, hij, hx, hy, hy', hloss⟩
    · rcases le_or_gt loss 0 with hle | hpositive
      · exact hle.trans (hworst.2 (.inl rfl))
      · obtain ⟨seen, hmem, hle⟩ := hseen loss ⟨i, j, x, y, hij, hx, hy, hy', hloss⟩ hpositive
        exact hle.trans (hp hmem)
    · rcases Nat.lt_or_ge k i with hki | hik
      · obtain rfl : i = k + 1 := by omega
        rw [hx, Option.some.injEq] at hy
        rw [hloss, hy, fall_self]
        exact hworst.2 (.inl rfl)
      · rw [← hlevel] at hloss
        exact hp ⟨i, k, x, z, hik, hx, hz, hpz, hloss⟩

variable [IsStrictOrderedRing K]

theorem fall_le_fall {a b v : K} (ha : 0 < a) (hab : a ≤ b) (hv : 0 ≤ v) : fall a v ≤ fall b v := by
  have hb : 0 < b := lt_of_lt_of_le ha hab
  unfold fall
  rw [div_le_div_iff₀ ha hb]
  have hscaled : v * a ≤ v * b := mul_le_mul_of_nonneg_left hab hv
  linarith

/-- One more point: the peak follows it, and the worst fall is compared with that from the peak
where `p` holds. -/
theorem Watched.snoc {peak : Option K} {worst : K} (h : Watched level p history peak worst) {y : α}
    [Decidable (p y)] (hpositive : ∀ x ∈ history ++ [y], 0 < level x) :
    Watched level p (history ++ [y]) (some (max (peak.getD (level y)) (level y)))
      (if p y then max worst (fall (max (peak.getD (level y)) (level y)) (level y)) else worst) := by
  have hcovers : ∀ x ∈ history ++ [y], level x ≤ max (peak.getD (level y)) (level y) := by
    intro x hx
    rcases List.mem_append.mp hx with hx | hx
    · obtain ⟨top, htop, hle⟩ := h.covers x hx
      apply le_max_of_le_left
      rwa [Option.mem_def.mp htop, Option.getD_some]
    · rw [List.mem_singleton.mp hx]
      exact le_max_right _ _
  have hreached : ∃ x ∈ history ++ [y], level x = max (peak.getD (level y)) (level y) := by
    have hlast : y ∈ history ++ [y] := by simp
    cases hpeak : peak with
    | none => exact ⟨y, hlast, by simp⟩
    | some top =>
      obtain ⟨x, hx, htop⟩ := h.reached top hpeak
      rw [Option.getD_some]
      rcases le_total top (level y) with hle | hle
      · exact ⟨y, hlast, (max_eq_right hle).symm⟩
      · refine ⟨x, List.mem_append_left _ hx, ?_⟩
        rw [htop, max_eq_left hle]
  generalize max (peak.getD (level y)) (level y) = top at hcovers hreached ⊢
  refine ⟨?_, ?_, ?_, ?_⟩
  · rintro top' ⟨⟩
    exact hreached
  · intro x hx
    exact ⟨top, rfl, hcovers x hx⟩
  · split
    · rename_i hp
      rcases max_choice worst (fall top (level y)) with hmax | hmax
      · rw [hmax]
        exact h.greatest.1.imp_right fun hworst => mem_falls_snoc.mpr (.inl hworst)
      · rw [hmax]
        obtain ⟨x, hx, htop⟩ := hreached
        exact .inr (mem_falls_snoc.mpr (.inr ⟨hp, x, hx, by rw [htop]⟩))
    · exact h.greatest.1.imp_right fun hworst => mem_falls_snoc.mpr (.inl hworst)
  · have hold : worst ≤ if p y then max worst (fall top (level y)) else worst := by
      split
      · exact le_max_left _ _
      · exact le_rfl
    rintro loss (rfl | hloss)
    · exact (h.greatest.2 (.inl rfl)).trans hold
    · rcases mem_falls_snoc.mp hloss with hloss | ⟨hp, x, hx, rfl⟩
      · exact (h.greatest.2 (.inr hloss)).trans hold
      · rw [if_pos hp]
        apply le_max_of_le_right
        apply fall_le_fall (hpositive x hx) (hcovers x hx)
        exact (hpositive y (by simp)).le

end CopyTrade.Foundation
