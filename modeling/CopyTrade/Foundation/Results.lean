import Mathlib.Data.List.Basic
import Mathlib.Data.List.Induction

/-!
# Fallible steps and fallible loops

Code that returns early with an error is written with `Except`.  `of_bind` takes a sequence of such
steps apart, and the `foldlM` rules do the same for a loop that carries a state; `exchange_foldlM`
moves one step in front of a whole loop when it may be moved in front of each of its rounds.

A `CheckedLoop` takes the items that pass a check in the present state and leaves a trace of its own
for the others.  What it ends in is what the others make of the state in which the last item passed.
-/

namespace CopyTrade.Foundation

section

variable {ε α β S : Type}

variable {x : Except ε α} {f : S → α → Except ε S} {l : List α}

theorem bind_eq_ok_iff {f : α → Except ε β} {b : β} :
    (x >>= f) = .ok b ↔ ∃ a, x = .ok a ∧ f a = .ok b := by
  cases x with
  | error e => simp [bind, Except.bind]
  | ok a => simp [bind, Except.bind]

theorem of_bind {f : α → Except ε β} {b : β} (h : (x >>= f) = .ok b) :
    ∃ a, x = .ok a ∧ f a = .ok b :=
  bind_eq_ok_iff.mp h

theorem bind_eq_error_iff {f : α → Except ε β} {e : ε} :
    (x >>= f) = .error e ↔ x = .error e ∨ ∃ a, x = .ok a ∧ f a = .error e := by
  cases x with
  | error e => simp [bind, Except.bind]
  | ok a => simp [bind, Except.bind]

theorem map_eq_ok_iff {f : α → β} {b : β} : x.map f = .ok b ↔ ∃ a, x = .ok a ∧ f a = b := by
  cases x <;> simp [Except.map]

theorem mapError_eq_ok_iff {ε' : Type} {f : ε → ε'} {a : α} : x.mapError f = .ok a ↔ x = .ok a := by
  cases x <;> simp [Except.mapError]

@[simp] theorem pure_eq_ok_iff {a b : α} : (pure a : Except ε α) = .ok b ↔ a = b := by
  simp [pure, Except.pure]

theorem ok_bind (a : α) (f : α → Except ε β) : (Except.ok a >>= f) = f a := rfl

theorem error_bind (e : ε) (f : α → Except ε β) : (Except.error e >>= f) = .error e := rfl

theorem eq_ok_of_toOption {a : α} (h : x.toOption = some a) : x = .ok a := by
  cases x with
  | error e => cases h
  | ok found =>
    apply congrArg Except.ok
    exact Option.some.inj h

theorem refuse_eq_ok_iff {condition : Prop} [Decidable condition] {error : ε} {a : α} :
    (if condition then .error error else x) = .ok a ↔ ¬ condition ∧ x = .ok a := by
  by_cases h : condition
  · simp [h]
  · simp [h]

/-- A loop that runs `check` on each element and stops at the first error. -/
def checkAll {ε α : Type} (check : α → Except ε Unit) : List α → Except ε Unit
  | [] => .ok ()
  | a :: rest => do check a; checkAll check rest

theorem checkAll_eq_ok_iff {ε α : Type} (check : α → Except ε Unit) (l : List α) :
    checkAll check l = .ok () ↔ ∀ a ∈ l, check a = .ok () := by
  induction l with
  | nil => simp [checkAll]
  | cons a rest ih =>
    rw [checkAll, List.forall_mem_cons, ← ih]
    cases h : check a with
    | error e => simp [bind, Except.bind]
    | ok u => simp [bind, Except.bind]

theorem foldlM_cons_eq_ok_iff {s t : S} {a : α} :
    (a :: l).foldlM f s = .ok t ↔ ∃ r, f s a = .ok r ∧ l.foldlM f r = .ok t := by
  rw [List.foldlM_cons]
  exact bind_eq_ok_iff

theorem foldlM_append_eq_ok_iff {s t : S} {m : List α} :
    (l ++ m).foldlM f s = .ok t ↔ ∃ r, l.foldlM f s = .ok r ∧ m.foldlM f r = .ok t := by
  rw [List.foldlM_append]
  exact bind_eq_ok_iff

theorem foldlM_snoc_eq_ok_iff {s t : S} {a : α} :
    (l ++ [a]).foldlM f s = .ok t ↔ ∃ r, l.foldlM f s = .ok r ∧ f r a = .ok t := by
  rw [foldlM_append_eq_ok_iff]
  simp only [foldlM_cons_eq_ok_iff, List.foldlM_nil, pure_eq_ok_iff, exists_eq_right]

theorem foldlM_frame {F : Type} {frame : S → F}
    (hframe : ∀ s a t, f s a = .ok t → frame t = frame s) {s t : S} (h : l.foldlM f s = .ok t) :
    frame t = frame s := by
  induction l generalizing s with
  | nil =>
    rw [List.foldlM_nil, pure_eq_ok_iff] at h
    rw [h]
  | cons a l ih =>
    obtain ⟨r, hr, h⟩ := foldlM_cons_eq_ok_iff.mp h
    exact (ih h).trans (hframe s a r hr)

/-- **The rule of a loop over the entries of a map.**  A state has a frame that no round changes
and a component for every key, and a round at a key relates the component of that key to what it
was and leaves the others.  Then a loop over entries with different keys keeps the frame, relates
the component of every key it visits and leaves the others. -/
theorem foldlM_keyed {K V F C : Type} {f : S → K × V → Except ε S} {frame : S → F}
    {component : S → K → C} {R : F → K → V → C → C → Prop}
    (hframe : ∀ s entry t, f s entry = .ok t → frame t = frame s)
    (hown : ∀ s entry t, f s entry = .ok t →
      R (frame s) entry.1 entry.2 (component s entry.1) (component t entry.1))
    (hother : ∀ s entry t k, f s entry = .ok t → k ≠ entry.1 → component t k = component s k)
    {l : List (K × V)} (hl : (l.map Prod.fst).Nodup) {s t : S} (h : l.foldlM f s = .ok t) :
    frame t = frame s ∧
      (∀ k v, (k, v) ∈ l → R (frame s) k v (component s k) (component t k)) ∧
      (∀ k, k ∉ l.map Prod.fst → component t k = component s k) := by
  induction l generalizing s with
  | nil =>
    simp only [List.foldlM_nil, pure_eq_ok_iff] at h
    subst h
    simp
  | cons entry l ih =>
    obtain ⟨r, hr, h⟩ := foldlM_cons_eq_ok_iff.mp h
    rw [List.map_cons, List.nodup_cons] at hl
    obtain ⟨hkept, hrelated, hleft⟩ := ih hl.2 h
    refine ⟨hkept.trans (hframe s entry r hr), ?_, ?_⟩
    · intro k v hkv
      rcases List.mem_cons.mp hkv with rfl | hkv
      · have hsame := hleft k hl.1
        rw [hsame]
        exact hown s (k, v) r hr
      · have hne : k ≠ entry.1 := fun heq => hl.1 (heq ▸ List.mem_map_of_mem hkv)
        have hrest := hrelated k v hkv
        rwa [hframe s entry r hr, hother s entry r k hr hne] at hrest
    · intro k hk
      rw [List.map_cons, List.mem_cons, not_or] at hk
      rw [hleft k hk.2, hother s entry r k hr hk.1]

/-- **The exchange rule.**  A step that may be moved in front of each round of a loop, and
whose condition `C` no round changes, may be moved in front of the loop. -/
theorem exchange_foldlM {g : S → Except ε S} {C : S → α → Prop}
    (hexchange : ∀ s a t u, f s a = .ok t → g t = .ok u → C t a →
      ∃ r, g s = .ok r ∧ f r a = .ok u) (hkeeps : ∀ s a t b, f s a = .ok t → C t b → C s b)
    {s t u : S} (hl : l.foldlM f s = .ok t) (hg : g t = .ok u) (hC : ∀ a ∈ l, C t a) :
    ∃ r, g s = .ok r ∧ l.foldlM f r = .ok u := by
  induction l using List.reverseRecOn generalizing t u with
  | nil =>
    simp only [List.foldlM_nil, pure_eq_ok_iff] at hl
    subst hl
    exact ⟨u, hg, by simp only [List.foldlM_nil, pure_eq_ok_iff]⟩
  | append_singleton l a ih =>
    obtain ⟨r, hr, ha⟩ := foldlM_snoc_eq_ok_iff.mp hl
    obtain ⟨v, hv, hu⟩ := hexchange r a t u ha hg (hC a (by simp))
    obtain ⟨w, hw, hlw⟩ := ih hr hv (fun b hb => hkeeps r a t b ha (hC b (by simp [hb])))
    exact ⟨w, hw, foldlM_snoc_eq_ok_iff.mpr ⟨v, hlw, hu⟩⟩

end

/-- A loop over items: an item that passes in the present state is taken, any other one skipped. -/
structure CheckedLoop (S C : Type) where
  passes : S → C → Bool
  take : S → C → S
  skip : S → C → S

namespace CheckedLoop

variable {S C : Type}

def step (loop : CheckedLoop S C) (s : S) (c : C) : S :=
  if loop.passes s c then loop.take s c else loop.skip s c

/-- Some item passes in the state in which it is reached. -/
def passesSome (loop : CheckedLoop S C) : S → List C → Bool
  | _, [] => false
  | s, c :: l => loop.passes s c || loop.passesSome (loop.step s c) l

/-- The state after the last item that passes, and the items behind it; the first state and all
items where none passes. -/
def lastPassed (loop : CheckedLoop S C) : S → List C → S × List C
  | s, [] => (s, [])
  | s, c :: l =>
    if loop.passesSome s (c :: l) then loop.lastPassed (loop.step s c) l else (s, c :: l)

variable (loop : CheckedLoop S C)

theorem foldl_step_of_passesSome_eq_false {s : S} {l : List C} (h : loop.passesSome s l = false) :
    l.foldl loop.step s = l.foldl loop.skip s := by
  induction l generalizing s with
  | nil => simp
  | cons c l ih =>
    unfold passesSome at h
    rw [Bool.or_eq_false_iff] at h
    have hskip : loop.step s c = loop.skip s c := by simp [step, h.1]
    rw [hskip] at h
    rw [List.foldl_cons, List.foldl_cons, hskip, ih h.2]

theorem foldl_step_eq (s : S) (l : List C) :
    l.foldl loop.step s = (loop.lastPassed s l).2.foldl loop.skip (loop.lastPassed s l).1 := by
  induction l generalizing s with
  | nil => simp [lastPassed]
  | cons c l ih =>
    unfold lastPassed
    by_cases hpasses : loop.passesSome s (c :: l) = true
    · rw [if_pos hpasses, List.foldl_cons, ih]
    · rw [if_neg hpasses]
      apply foldl_step_of_passesSome_eq_false
      simpa using hpasses

theorem lastPassed_suffix (s : S) (l : List C) : (loop.lastPassed s l).2 <:+ l := by
  induction l generalizing s with
  | nil => simp [lastPassed]
  | cons c l ih =>
    unfold lastPassed
    split
    · exact (ih _).trans (List.suffix_cons c l)
    · exact List.suffix_refl _

end CheckedLoop

end CopyTrade.Foundation
