import Mathlib.Data.List.SplitBy

/-!
# Maximal runs

A list cut where the key of its elements changes.  The first elements of the runs follow one
another: each but the last is succeeded by the element that ended its run.  One element more at the
end either goes on with the last run, and then nothing is succeeded, or it ends it.
-/

namespace CopyTrade.Foundation

variable {α κ : Type*} [DecidableEq κ] (key : α → κ)

def maximalRuns (l : List α) : List (List α) := l.splitBy fun a b => key a == key b

def runHeads (l : List α) : List α := (maximalRuns key l).filterMap List.head?

/-- The first element of each run that has ended, with the element that ended it. -/
def endedRuns (l : List α) : List (α × α) := (runHeads key l).zip (runHeads key l).tail

@[simp] theorem runHeads_nil : runHeads key [] = [] := rfl

@[simp] theorem endedRuns_nil : endedRuns key [] = [] := rfl

variable {key} {l : List α} {last x : α}

theorem maximalRuns_concat_of_ne (h : ∀ last ∈ l.getLast?, key last ≠ key x) :
    maximalRuns key (l ++ [x]) = maximalRuns key l ++ [[x]] := by
  unfold maximalRuns
  rw [List.splitBy_append_cons]
  · rfl
  · intro last hlast
    exact beq_false_of_ne (h last hlast)

theorem maximalRuns_concat_of_eq (hlast : l.getLast? = some last) (h : key last = key x) :
    ∃ before run, run ≠ [] ∧ maximalRuns key l = before ++ [run] ∧
      maximalRuns key (l ++ [x]) = before ++ [run ++ [x]] := by
  obtain ⟨init, rfl⟩ := List.getLast?_eq_some_iff.mp hlast
  have hne : maximalRuns key (init ++ [last]) ≠ [] :=
    List.splitBy_ne_nil.mpr (List.append_ne_nil_of_right_ne_nil _ (List.cons_ne_nil _ _))
  obtain ⟨before, run, hruns⟩ := List.eq_nil_or_concat' (maximalRuns key (init ++ [last]))
    |>.resolve_left hne
  obtain ⟨hflatten, hnil, hchain, hbetween⟩ := List.splitBy_eq_iff.mp hruns
  have hrun : run ≠ [] := by
    rintro rfl
    exact hnil (List.mem_append_right _ (List.mem_singleton_self _))
  have hrunLast : run.getLast hrun = last := by
    have hlasts := congrArg List.getLast? hflatten
    rw [List.getLast?_concat, List.flatten_append, List.flatten_singleton,
      List.getLast?_append_of_ne_nil _ hrun, List.getLast?_eq_some_getLast hrun] at hlasts
    exact (Option.some.inj hlasts).symm
  refine ⟨before, run, hrun, hruns, ?_⟩
  apply List.splitBy_eq_iff.mpr
  refine ⟨?_, ?_, ?_, ?_⟩
  · rw [hflatten]
    simp
  · simpa using fun hmem => hnil (List.mem_append_left _ hmem)
  · intro part hpart
    rcases List.mem_append.mp hpart with hbefore | hnew
    · exact hchain part (List.mem_append_left _ hbefore)
    · rw [List.mem_singleton] at hnew
      subst hnew
      apply List.IsChain.append (hchain run (by simp)) (List.isChain_singleton x)
      intro a ha b hb
      rw [List.getLast?_eq_some_getLast hrun, hrunLast, Option.mem_some_iff] at ha
      rw [List.head?_cons, Option.mem_some_iff] at hb
      subst ha hb
      exact beq_iff_eq.mpr h
  · rw [List.isChain_append] at hbetween ⊢
    refine ⟨hbetween.1, List.isChain_singleton _, ?_⟩
    intro a ha b hb
    obtain ⟨ha', hb', hcut⟩ := hbetween.2.2 a ha run (by simp)
    rw [List.head?_cons, Option.mem_some_iff] at hb
    subst hb
    exact ⟨ha', by simp, by rwa [List.head_append_of_ne_nil hb']⟩

theorem runHeads_concat_of_ne (h : ∀ last ∈ l.getLast?, key last ≠ key x) :
    runHeads key (l ++ [x]) = runHeads key l ++ [x] := by
  unfold runHeads
  rw [maximalRuns_concat_of_ne h, List.filterMap_append]
  rfl

theorem runHeads_concat_of_eq (hlast : l.getLast? = some last) (h : key last = key x) :
    runHeads key (l ++ [x]) = runHeads key l := by
  obtain ⟨before, run, hrun, hbefore, hafter⟩ := maximalRuns_concat_of_eq hlast h
  unfold runHeads
  rw [hbefore, hafter, List.filterMap_append, List.filterMap_append]
  congr 1
  cases run with
  | nil => exact absurd rfl hrun
  | cons _ _ => rfl

theorem key_getLast?_runHeads (l : List α) :
    (runHeads key l).getLast?.map key = l.getLast?.map key := by
  induction l using List.reverseRecOn with
  | nil => rfl
  | append_singleton l x ih =>
    by_cases h : ∀ last ∈ l.getLast?, key last ≠ key x
    · rw [runHeads_concat_of_ne h, List.getLast?_concat, List.getLast?_concat]
    · push Not at h
      obtain ⟨last, hlast, hkey⟩ := h
      rw [runHeads_concat_of_eq hlast hkey, ih, List.getLast?_concat, hlast, Option.map_some,
        Option.map_some, hkey]

theorem zip_tail_concat (heads : List α) (x : α) :
    (heads ++ [x]).zip (heads ++ [x]).tail =
      heads.zip heads.tail ++ (heads.getLast?.map fun last => (last, x)).toList := by
  induction heads with
  | nil => rfl
  | cons head heads ih =>
    cases heads with
    | nil => rfl
    | cons next heads =>
      simp only [List.cons_append, List.tail_cons, List.zip_cons_cons,
        List.getLast?_cons_cons] at ih ⊢
      rw [ih]

theorem endedRuns_concat_of_ne (h : ∀ last ∈ l.getLast?, key last ≠ key x) :
    endedRuns key (l ++ [x]) =
      endedRuns key l ++ ((runHeads key l).getLast?.map fun head => (head, x)).toList := by
  unfold endedRuns
  rw [runHeads_concat_of_ne h, zip_tail_concat]

theorem endedRuns_concat_of_eq (hlast : l.getLast? = some last) (h : key last = key x) :
    endedRuns key (l ++ [x]) = endedRuns key l := by
  unfold endedRuns
  rw [runHeads_concat_of_eq hlast h]

theorem mem_of_mem_runHeads (h : x ∈ runHeads key l) : x ∈ l := by
  obtain ⟨run, hrun, hhead⟩ := List.mem_filterMap.mp h
  rw [← List.flatten_splitBy (fun a b => key a == key b) l]
  exact List.mem_flatten.mpr ⟨run, hrun, List.mem_of_mem_head? hhead⟩

theorem endedRuns_prefix_concat (l : List α) (x : α) :
    endedRuns key l <+: endedRuns key (l ++ [x]) := by
  by_cases h : ∀ last ∈ l.getLast?, key last ≠ key x
  · rw [endedRuns_concat_of_ne h]
    exact List.prefix_append _ _
  · push Not at h
    obtain ⟨last, hlast, hkey⟩ := h
    exact ⟨[], by rw [List.append_nil, endedRuns_concat_of_eq hlast hkey]⟩

end CopyTrade.Foundation
