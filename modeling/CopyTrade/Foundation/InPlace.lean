import CopyTrade.Foundation.Results

/-!
# Code that changes its state in place

A mutator that fails in the middle leaves what it has written so far.  `InPlace` is such code: it
ends with a result and a state, also where the result is an error.  `Behaves` compares it with the
function that returns the next state or an error, and says when an error ends in a given state.
-/

namespace CopyTrade.Foundation

def InPlace (ε S α : Type) : Type := S → Except ε α × S

namespace InPlace

variable {ε S T V α β : Type}

/-- The code goes on with a value, and an error ends it where it is. -/
def andThen (m : InPlace ε S α) (f : α → InPlace ε S β) : InPlace ε S β := fun s =>
  match m s with
  | (.ok a, next) => f a next
  | (.error e, next) => (.error e, next)

instance : Monad (InPlace ε S) where
  pure a := fun s => (.ok a, s)
  bind := andThen

def check (x : Except ε α) : InPlace ε S α := fun s => (x, s)

def read : InPlace ε S S := fun s => (.ok s, s)

def write (f : S → S) : InPlace ε S Unit := fun s => (.ok (), f s)

def assign (value : S → Except ε V) (put : S → V → S) : InPlace ε S Unit := fun s =>
  match value s with
  | .ok v => (.ok (), put s v)
  | .error e => (.error e, s)

/-- Code on a part of the state, which is put back as the code leaves it. -/
def onPart (part : T) (put : S → T → S) (m : InPlace ε T α) : InPlace ε S α := fun s =>
  ((m part).1, put s (m part).2)

theorem bind_run (m : InPlace ε S α) (f : α → InPlace ε S β) (s : S) :
    (m >>= f) s = andThen m f s := rfl

variable {m : InPlace ε S α} {put : S → V → S} {value : S → Except ε V}

theorem bind_run_ok {s next : S} {a : α} (h : m s = (.ok a, next)) (f : α → InPlace ε S β) :
    (m >>= f) s = f a next := by
  rw [bind_run, andThen, h]

theorem bind_run_error {s next : S} {e : ε} (h : m s = (.error e, next)) (f : α → InPlace ε S β) :
    (m >>= f) s = (.error e, next) := by
  rw [bind_run, andThen, h]

theorem check_run_ok (a : α) (f : α → InPlace ε S β) (s : S) : (check (.ok a) >>= f) s = f a s := rfl

theorem check_run_error (e : ε) (f : α → InPlace ε S β) (s : S) :
    (check (.error e) >>= f) s = (.error e, s) := rfl

theorem assign_run_ok {s : S} {v : V} (h : value s = .ok v) :
    assign value put s = (.ok (), put s v) := by
  rw [assign, h]

theorem assign_run_error {s : S} {e : ε} (h : value s = .error e) :
    assign value put s = (.error e, s) := by
  rw [assign, h]

/-- Up to the first value that cannot be computed, every new value is the old one. -/
def KeepsUntilFailure : List (Option V × V) → Prop
  | [] => True
  | (none, _) :: _ => True
  | (some new, old) :: rest => new = old ∧ KeepsUntilFailure rest

@[simp] theorem keepsUntilFailure_nil : KeepsUntilFailure ([] : List (Option V × V)) := trivial

@[simp] theorem keepsUntilFailure_none (old : V) (rest : List (Option V × V)) :
    KeepsUntilFailure ((none, old) :: rest) := trivial

@[simp] theorem keepsUntilFailure_some (new old : V) (rest : List (Option V × V)) :
    KeepsUntilFailure ((some new, old) :: rest) ↔ new = old ∧ KeepsUntilFailure rest := Iff.rfl

/-- The code computes a result, and where that is an error ends in the state `first` exactly when the
failure is a clean one. -/
structure Behaves (m : InPlace ε S Unit) (s first : S) (result : Except ε S) (clean : Prop) :
    Prop where
  value : (m s).1 = result.map fun _ => ()
  done : ∀ next, result = .ok next → (m s).2 = next
  failed : ∀ e, result = .error e → ((m s).2 = first ↔ clean)

section

variable {s first : S} {clean : Prop}

theorem behaves_check_error {e : ε} (h : s = first ↔ clean) :
    Behaves (check (.error e)) s first (.error e) clean :=
  ⟨rfl, fun next hnext => (by cases hnext), fun _ _ => h⟩

theorem behaves_pure : Behaves (pure () : InPlace ε S Unit) s first (.ok s) clean :=
  ⟨rfl, fun next hnext => (by cases hnext; rfl), fun e he => by cases he⟩

theorem behaves_write (f : S → S) :
    Behaves (write f : InPlace ε S Unit) s first (.ok (f s)) clean :=
  ⟨rfl, fun next hnext => (by cases hnext; rfl), fun e he => by cases he⟩

variable {result : Except ε S} {f : Unit → InPlace ε S Unit} {m : InPlace ε S Unit}

theorem behaves_read_bind {f : S → InPlace ε S Unit} (h : Behaves (f s) s first result clean) :
    Behaves (read >>= f) s first result clean :=
  ⟨h.value, h.done, h.failed⟩

theorem behaves_write_bind {g : S → S} (h : Behaves (f ()) (g s) first result clean) :
    Behaves (write g >>= f) s first result clean :=
  ⟨h.value, h.done, h.failed⟩

theorem behaves_check_bind {x : Except ε α} {f : α → InPlace ε S Unit} {g : α → Except ε S}
    (herror : ∀ e, x = .error e → (s = first ↔ clean))
    (hok : ∀ a, x = .ok a → Behaves (f a) s first (g a) clean) :
    Behaves (check x >>= f) s first (x >>= g) clean := by
  cases x with
  | ok a => exact hok a rfl
  | error e => exact ⟨rfl, fun next hnext => (by cases hnext), fun _ _ => herror e rfl⟩

variable {value : S → Except ε V} {firstPart : T} {put : S → T → S}

theorem behaves_assign {put : S → V → S} (herror : ∀ e, value s = .error e → (s = first ↔ clean)) :
    Behaves (assign value put) s first (value s >>= fun v => pure (put s v)) clean := by
  cases hvalue : value s with
  | ok v =>
    have hrun : assign value put s = (.ok (), put s v) := assign_run_ok hvalue
    exact ⟨by rw [hrun]; rfl, fun next hnext => (by cases hnext; rw [hrun]), fun e he => by cases he⟩
  | error e =>
    have hrun : assign value put s = (.error e, s) := assign_run_error hvalue
    exact ⟨by rw [hrun]; rfl, fun next hnext => (by cases hnext),
      fun _ _ => by rw [hrun]; exact herror e hvalue⟩

theorem behaves_assign_bind {put : S → V → S} {g : V → Except ε S}
    (herror : ∀ e, value s = .error e → (s = first ↔ clean))
    (hok : ∀ v, value s = .ok v → Behaves (f ()) (put s v) first (g v) clean) :
    Behaves (assign value put >>= f) s first (value s >>= g) clean := by
  cases hvalue : value s with
  | ok v =>
    have hrun : (assign value put >>= f) s = f () (put s v) := bind_run_ok (assign_run_ok hvalue) f
    have hrest := hok v hvalue
    exact ⟨by rw [hrun]; exact hrest.value, fun next hnext => by rw [hrun]; exact hrest.done next hnext,
      fun e he => by rw [hrun]; exact hrest.failed e he⟩
  | error e =>
    have hrun : (assign value put >>= f) s = (.error e, s) :=
      bind_run_error (assign_run_error hvalue) f
    exact ⟨by rw [hrun]; rfl, fun next hnext => (by cases hnext),
      fun _ _ => by rw [hrun]; exact herror e hvalue⟩

theorem Behaves.bind {g : S → Except ε S} (h : Behaves m s first result clean)
    (hok : ∀ next, result = .ok next → Behaves (f ()) next first (g next) clean) :
    Behaves (m >>= f) s first (result >>= g) clean := by
  have hvalue := h.value
  cases hresult : result with
  | ok next =>
    rw [hresult] at hvalue
    have hrun : (m >>= f) s = f () next :=
      bind_run_ok (Prod.ext hvalue (h.done next hresult)) f
    have hrest := hok next hresult
    exact ⟨by rw [hrun]; exact hrest.value, fun next hnext => by rw [hrun]; exact hrest.done next hnext,
      fun e he => by rw [hrun]; exact hrest.failed e he⟩
  | error e =>
    rw [hresult] at hvalue
    have hrun : (m >>= f) s = (.error e, (m s).2) := bind_run_error (Prod.ext hvalue rfl) f
    exact ⟨by rw [hrun]; rfl, fun next hnext => (by cases hnext),
      fun _ _ => by rw [hrun]; exact h.failed e hresult⟩

theorem Behaves.congr {other : Prop} (h : Behaves m s first result other)
    (hclean : ∀ e, result = .error e → (other ↔ clean)) : Behaves m s first result clean :=
  ⟨h.value, h.done, fun e he => (h.failed e he).trans (hclean e he)⟩

theorem Behaves.unchanged_iff {e : ε} (h : Behaves m s first result clean) (he : (m s).1 = .error e) :
    (m s).2 = first ↔ clean := by
  have hvalue := h.value
  cases hresult : result with
  | ok next =>
    rw [hresult, he] at hvalue
    cases hvalue
  | error other => exact h.failed other hresult

/-- Code on a part behaves like the code itself, where only the part makes a difference. -/
theorem Behaves.ofPart {m : InPlace ε T Unit} {part : T} {result : Except ε T}
    (h : Behaves m part firstPart result clean) (hback : ∀ t, put s t = first ↔ t = firstPart) :
    Behaves (onPart part put m) s first (result >>= fun t => pure (put s t)) clean := by
  have hvalue := h.value
  cases hresult : result with
  | ok inner =>
    rw [hresult] at hvalue
    refine ⟨hvalue, fun next hnext => ?_, fun e he => by cases he⟩
    cases hnext
    exact congrArg (put s) (h.done inner hresult)
  | error other =>
    rw [hresult] at hvalue
    refine ⟨hvalue, fun next hnext => (by cases hnext), fun e _ => ?_⟩
    show put s (m part).2 = first ↔ clean
    rw [hback]
    exact h.failed other hresult

theorem Behaves.ofPart_moved {m : InPlace ε T Unit} {part : T} {result : Except ε T}
    (h : Behaves m part firstPart result clean) (hmoved : ∀ t, put s t ≠ first) :
    Behaves (onPart part put m) s first (result >>= fun t => pure (put s t)) False := by
  have hvalue := h.value
  cases hresult : result with
  | ok inner =>
    rw [hresult] at hvalue
    refine ⟨hvalue, fun next hnext => ?_, fun e he => by cases he⟩
    cases hnext
    exact congrArg (put s) (h.done inner hresult)
  | error other =>
    rw [hresult] at hvalue
    exact ⟨hvalue, fun next hnext => (by cases hnext), fun e _ =>
      iff_false_intro (hmoved (m part).2)⟩

theorem Behaves.ofPart_bind {m : InPlace ε T Unit} {part : T} {result : Except ε T}
    (h : Behaves m part firstPart result clean) (hback : ∀ t, put s t = first ↔ t = firstPart)
    {g : T → Except ε S} (hok : ∀ t, result = .ok t → Behaves (f ()) (put s t) first (g t) clean) :
    Behaves (onPart part put m >>= f) s first (result >>= g) clean := by
  have hpart := h.ofPart (s := s) hback
  cases hresult : result with
  | ok inner =>
    rw [hresult] at hpart
    refine Behaves.bind (g := fun _ => g inner) hpart ?_
    intro next hnext
    cases hnext
    exact hok inner hresult
  | error e =>
    rw [hresult] at hpart
    refine Behaves.bind (g := fun _ => .error e) hpart ?_
    intro next hnext
    cases hnext

end

end InPlace

end CopyTrade.Foundation
