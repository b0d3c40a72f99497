import Mathlib.Algebra.Order.BigOperators.Group.Finset

/-!
# Serving items until none is waiting

A server always serves an item that comes before all others that are waiting; an item served often
enough may stop waiting.  The server ends exactly when every item stops waiting at some time.

Serving a party whose count is least against its target keeps every two parties within one service
of each other, measured across: the count of either one times the target of the other.
-/

namespace CopyTrade.Foundation

open Finset

section

/-- Which item is waiting after how many services, and which one is served next. -/
structure Server (K : Type) where
  items : Finset K
  waiting : K → ℕ → Prop
  before : K → K → Prop
  next : (K → ℕ) → Option K
  next_none : ∀ served, next served = none → ∀ k ∈ items, ¬ waiting k (served k)
  next_some : ∀ served k, next served = some k → k ∈ items ∧ waiting k (served k) ∧
    ∀ j ∈ items, waiting j (served j) → before k j

namespace Server

variable {K : Type} [DecidableEq K]

def log (server : Server K) : ℕ → List K
  | 0 => []
  | n + 1 =>
    match server.next fun k => (log server n).count k with
    | none => log server n
    | some k => log server n ++ [k]

def Ended (server : Server K) (n : ℕ) : Prop := server.next (fun k => (server.log n).count k) = none

variable {server : Server K}

theorem log_succ_of_next {n : ℕ} {k : K}
    (h : server.next (fun k => (server.log n).count k) = some k) :
    server.log (n + 1) = server.log n ++ [k] := by
  rw [log, h]

theorem log_succ_of_ended {n : ℕ} (h : server.Ended n) : server.log (n + 1) = server.log n := by
  rw [log, show server.next _ = none from h]

theorem mem_items_of_mem_log {n : ℕ} {k : K} (h : k ∈ server.log n) : k ∈ server.items := by
  induction n with
  | zero => cases h
  | succ n ih =>
    cases hnext : server.next fun k => (server.log n).count k with
    | none => exact ih (log_succ_of_ended hnext ▸ h)
    | some j =>
      rw [log_succ_of_next hnext, List.mem_append, List.mem_singleton] at h
      rcases h with h | rfl
      · exact ih h
      · exact (server.next_some _ _ hnext).1

theorem count_log_le {k : K} {bound : ℕ} (h : ¬ server.waiting k bound) (n : ℕ) :
    (server.log n).count k ≤ bound := by
  induction n with
  | zero => exact Nat.zero_le _
  | succ n ih =>
    cases hnext : server.next fun k => (server.log n).count k with
    | none => rwa [log_succ_of_ended hnext]
    | some j =>
      rw [log_succ_of_next hnext, List.count_append, List.count_singleton]
      by_cases hsame : j = k
      · subst hsame
        have hne : (server.log n).count j ≠ bound :=
          fun heq => h (heq ▸ (server.next_some _ _ hnext).2.1)
        rw [if_pos (beq_self_eq_true j)]
        omega
      · rw [if_neg (by simpa using hsame)]
        exact ih

theorem length_log {n : ℕ} (h : ∀ m < n, ¬ server.Ended m) : (server.log n).length = n := by
  induction n with
  | zero => rfl
  | succ n ih =>
    cases hnext : server.next fun k => (server.log n).count k with
    | none => exact absurd hnext (h n (Nat.lt_succ_self n))
    | some k =>
      rw [log_succ_of_next hnext, List.length_append, List.length_singleton,
        ih fun m hm => h m (hm.trans (Nat.lt_succ_self n))]

/-- **The end of a server.**  It ends exactly when every item stops waiting after some number of
services. -/
theorem ended_iff : (∃ n, server.Ended n) ↔ ∀ k ∈ server.items, ∃ n, ¬ server.waiting k n := by
  constructor
  · rintro ⟨n, hended⟩ k hk
    exact ⟨_, server.next_none _ hended k hk⟩
  · intro hstops
    by_contra hnever
    rw [not_exists] at hnever
    choose! bound hbound using hstops
    -- The log is as long as the run, and no longer than the bounds of the items together.
    let total := ∑ k ∈ server.items, bound k
    have hlength : (server.log (total + 1)).length = total + 1 := length_log fun m _ => hnever m
    have hsubset : (server.log (total + 1)).toFinset ⊆ server.items := by
      intro k hk
      exact mem_items_of_mem_log (List.mem_toFinset.mp hk)
    have hcount : (server.log (total + 1)).length ≤ total := by
      calc (server.log (total + 1)).length
          = ∑ k ∈ (server.log (total + 1)).toFinset, (server.log (total + 1)).count k :=
            (List.sum_toFinset_count_eq_length _).symm
        _ ≤ ∑ k ∈ server.items, (server.log (total + 1)).count k :=
            sum_le_sum_of_subset hsubset
        _ ≤ total := sum_le_sum fun k hk => count_log_le (hbound k hk) _
    omega

theorem mem_log_of_ended {n : ℕ} {k : K} (hended : server.Ended n) (hk : k ∈ server.items)
    (hwaiting : server.waiting k 0) : k ∈ server.log n := by
  by_contra hnever
  have hnot := server.next_none _ hended k hk
  rw [List.count_eq_zero_of_not_mem hnever] at hnot
  exact hnot hwaiting

/-- Items are served before all others that are waiting, where none begins to wait again. -/
theorem pairwise_log (hstops : ∀ k n, server.waiting k (n + 1) → server.waiting k n) (n : ℕ) :
    (server.log n).Pairwise server.before := by
  have hboth : (server.log n).Pairwise server.before ∧
      ∀ k ∈ server.log n, ∀ j ∈ server.items, server.waiting j ((server.log n).count j) →
        server.before k j := by
    induction n with
    | zero => exact ⟨.nil, fun k hk => nomatch hk⟩
    | succ n ih =>
      obtain ⟨hordered, hfirst⟩ := ih
      cases hnext : server.next fun k => (server.log n).count k with
      | none =>
        rw [log_succ_of_ended hnext]
        exact ⟨hordered, hfirst⟩
      | some k =>
        obtain ⟨hk, hwaiting, hleast⟩ := server.next_some _ _ hnext
        rw [log_succ_of_next hnext]
        have hwaited : ∀ j, server.waiting j ((server.log n ++ [k]).count j) →
            server.waiting j ((server.log n).count j) := by
          intro j hj
          rw [List.count_append, List.count_singleton] at hj
          split at hj
          · exact hstops j _ hj
          · exact hj
        refine ⟨List.pairwise_append.mpr ⟨hordered, List.pairwise_singleton _ _, ?_⟩, ?_⟩
        · intro i hi j hj
          rw [List.mem_singleton.mp hj]
          exact hfirst i hi k hk hwaiting
        · intro i hi j hj hstill
          rcases List.mem_append.mp hi with hi | hi
          · exact hfirst i hi j hj (hwaited j hstill)
          · rw [List.mem_singleton.mp hi]
            exact hleast j hj (hwaited j hstill)
  exact hboth.1

end Server

end

variable {ι : Type*} {count target : ι → ℕ}

def WithinOne (count target : ι → ℕ) : Prop :=
  ∀ i j, count i * target j ≤ count j * target i + target j

theorem withinOne_zero (target : ι → ℕ) : WithinOne (fun _ => 0) target := by
  intro i j
  rw [Nat.zero_mul]
  exact Nat.zero_le _

/-- Serving a party that is ahead of none keeps all within one service. -/
theorem WithinOne.serve [DecidableEq ι] (h : WithinOne count target) {served : ι}
    (hleast : ∀ j, count served * target j ≤ count j * target served) :
    WithinOne (Function.update count served (count served + 1)) target := by
  intro i j
  have hij := h i j
  have hsucc : ∀ k, (count served + 1) * target k = count served * target k + target k :=
    fun k => Nat.succ_mul _ _
  by_cases hi : i = served
  · subst hi
    rw [Function.update_self]
    by_cases hj : j = i
    · subst hj
      rw [Function.update_self]
      omega
    · have hle := hleast j
      rw [Function.update_of_ne hj, hsucc]
      omega
  · rw [Function.update_of_ne hi]
    by_cases hj : j = served
    · subst hj
      rw [Function.update_self, hsucc]
      omega
    · rw [Function.update_of_ne hj]
      exact hij

end CopyTrade.Foundation
