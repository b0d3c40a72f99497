import CopyTrade.Foundation.Runs

/-!
# Programs that ask their environment

`Program Op Answer α` is code cut at its interaction points: it asks an operation, goes on with the
answer and ends in a value.  `eval` runs it alone against an environment; a `Pool` interleaves the
steps of several programs on one world.

A `Discipline` is a typestate: a level that every answer moves on and that says which operations may
be asked.  If the meaning of a level is kept by the steps of the other programs, every interleaving
of disciplined programs keeps the invariant (`Pool.disciplined_progress`).  `expand` puts programs
in the place of operations.
-/

namespace CopyTrade.Foundation

/-- Code cut at its interaction points. -/
inductive Program (Op : Type) (Answer : Op → Type) (α : Type)
  | done (value : α)
  | ask (op : Op) (next : Answer op → Program Op Answer α)

namespace Program

variable {Op : Type} {Answer : Op → Type} {α β : Type}

def bind : Program Op Answer α → (α → Program Op Answer β) → Program Op Answer β
  | done a, f => f a
  | ask op next, f => ask op fun answer => (next answer).bind f

instance : Monad (Program Op Answer) where
  pure := done
  bind := bind

def perform (op : Op) : Program Op Answer (Answer op) := ask op done

theorem ask_bind (op : Op) (next : Answer op → Program Op Answer α)
    (f : α → Program Op Answer β) : (ask op next >>= f) = ask op fun answer => next answer >>= f :=
  rfl

def OnlyAsks (p : Op → Prop) : Program Op Answer α → Prop
  | done _ => True
  | ask op next => p op ∧ ∀ answer, (next answer).OnlyAsks p

variable {p : Op → Prop}

variable {program : Program Op Answer α}

theorem onlyAsks_bind {f : α → Program Op Answer β} (hprogram : program.OnlyAsks p)
    (hf : ∀ a, (f a).OnlyAsks p) : (program >>= f).OnlyAsks p := by
  induction program with
  | done a => exact hf a
  | ask op next ih => exact ⟨hprogram.1, fun answer => ih answer (hprogram.2 answer)⟩

theorem onlyAsks_mono {q : Op → Prop} (h : program.OnlyAsks p) (himp : ∀ op, p op → q op) :
    program.OnlyAsks q := by
  induction program with
  | done a => trivial
  | ask op next ih => exact ⟨himp op h.1, fun answer => ih answer (h.2 answer)⟩

theorem onlyAsks_pure (a : α) :
    (pure a : Program Op Answer α).OnlyAsks p := trivial

/-- The fallible program that asks nothing and ends in `result`. -/
def ofResult {ε : Type} (result : Except ε α) : ExceptT ε (Program Op Answer) α :=
  ExceptT.mk (done result)

theorem onlyAsks_exceptBind {ε : Type} {x : ExceptT ε (Program Op Answer) α}
    {f : α → ExceptT ε (Program Op Answer) β} (hx : x.run.OnlyAsks p)
    (hf : ∀ a, (f a).run.OnlyAsks p) : (x >>= f).run.OnlyAsks p := by
  refine onlyAsks_bind hx ?_
  intro result
  cases result with
  | ok a => exact hf a
  | error e => trivial

section

variable {W : Type} {Choice : Op → Type}
  (respond : W → (op : Op) → Choice op → Option (Answer op × W))
  (environment : ℕ → (op : Op) → Choice op)

/-- The value and the world a program ends with when the environment's `n`-th choice answers
its first operation, and the number of the next choice.  `none` is a program that stops. -/
def eval : Program Op Answer α → ℕ → W → Option (α × ℕ × W)
  | done a, n, w => some (a, n, w)
  | ask op next, n, w =>
    match respond w op (environment n op) with
    | none => none
    | some (answer, w') => (next answer).eval (n + 1) w'

theorem eval_bind (program : Program Op Answer α) (f : α → Program Op Answer β) (n : ℕ) (w : W) :
    (program >>= f).eval respond environment n w =
      (program.eval respond environment n w).bind fun result =>
        (f result.1).eval respond environment result.2.1 result.2.2 := by
  induction program generalizing n w with
  | done a => rfl
  | ask op next ih =>
    rw [ask_bind, eval, eval]
    cases respond w op (environment n op) with
    | none => rfl
    | some result => exact ih result.1 (n + 1) result.2

variable {respond environment}

variable {program : Program Op Answer α}

variable {n : ℕ} {w : W}

theorem eval_bind_eq_some_iff {f : α → Program Op Answer β} {m : ℕ} {w' : W} {b : β} :
    (program >>= f).eval respond environment n w = some (b, m, w') ↔
      ∃ a k v, program.eval respond environment n w = some (a, k, v) ∧
        (f a).eval respond environment k v = some (b, m, w') := by
  rw [eval_bind, Option.bind_eq_some_iff]
  constructor
  · rintro ⟨⟨a, k, v⟩, hprogram, hf⟩
    exact ⟨a, k, v, hprogram, hf⟩
  · rintro ⟨a, k, v, hprogram, hf⟩
    exact ⟨⟨a, k, v⟩, hprogram, hf⟩

theorem eval_ask_eq_some_iff {op : Op} {next : Answer op → Program Op Answer α} {m : ℕ} {w' : W}
    {a : α} :
    (ask op next).eval respond environment n w = some (a, m, w') ↔
      ∃ answer v, respond w op (environment n op) = some (answer, v) ∧
        (next answer).eval respond environment (n + 1) v = some (a, m, w') := by
  rw [eval]
  constructor
  · intro h
    cases hrespond : respond w op (environment n op) with
    | none =>
      rw [hrespond] at h
      cases h
    | some result =>
      rw [hrespond] at h
      exact ⟨result.1, result.2, rfl, h⟩
  · rintro ⟨answer, v, hrespond, h⟩
    rw [hrespond]
    exact h

theorem eval_exceptBind_eq_ok_iff {ε : Type} {x : ExceptT ε (Program Op Answer) α}
    {f : α → ExceptT ε (Program Op Answer) β} {m : ℕ} {w' : W} {b : β} :
    (x >>= f).run.eval respond environment n w = some (.ok b, m, w') ↔
      ∃ a k v, x.run.eval respond environment n w = some (.ok a, k, v) ∧
        (f a).run.eval respond environment k v = some (.ok b, m, w') := by
  refine eval_bind_eq_some_iff.trans ?_
  constructor
  · rintro ⟨result, k, v, hx, hf⟩
    cases result with
    | ok a => exact ⟨a, k, v, hx, hf⟩
    | error e => cases hf
  · rintro ⟨a, k, v, hx, hf⟩
    exact ⟨.ok a, k, v, hx, hf⟩

/-- The world when the program stops after at most so many operations. -/
def interrupted (respond : W → (op : Op) → Choice op → Option (Answer op × W))
    (environment : ℕ → (op : Op) → Choice op) : ℕ → Program Op Answer α → ℕ → W → W
  | 0, _, _, w => w
  | _ + 1, done _, _, w => w
  | operations + 1, ask op next, n, w =>
    match respond w op (environment n op) with
    | none => w
    | some (answer, w') => interrupted respond environment operations (next answer) (n + 1) w'

theorem interrupted_done (operations : ℕ) (a : α) (n : ℕ) (w : W) :
    interrupted respond environment operations (done a : Program Op Answer α) n w = w := by
  cases operations <;> rfl

/-- A sequence stops in its first program, or in the second one after the first has ended. -/
theorem interrupted_bind (operations : ℕ) (program : Program Op Answer α)
    (f : α → Program Op Answer β) (n : ℕ) (w : W) :
    (∃ k, interrupted respond environment operations (program >>= f) n w =
      interrupted respond environment k program n w) ∨
    ∃ a m v k, program.eval respond environment n w = some (a, m, v) ∧
      interrupted respond environment operations (program >>= f) n w =
        interrupted respond environment k (f a) m v := by
  induction program generalizing operations n w with
  | done a => exact .inr ⟨a, n, w, operations, rfl, rfl⟩
  | ask op next ih =>
    cases operations with
    | zero => exact .inl ⟨0, rfl⟩
    | succ operations =>
      rw [ask_bind, interrupted, eval]
      cases hrespond : respond w op (environment n op) with
      | none =>
        refine .inl ⟨operations + 1, ?_⟩
        rw [interrupted, hrespond]
      | some result =>
        obtain ⟨answer, w'⟩ := result
        rcases ih answer operations (n + 1) w' with ⟨k, hk⟩ | ⟨a, m, v, k, heval, hk⟩
        · refine .inl ⟨k + 1, ?_⟩
          rw [interrupted, hrespond]
          exact hk
        · exact .inr ⟨a, m, v, k, heval, hk⟩

theorem exists_interrupted {m : ℕ} {w' : W} {a : α}
    (h : program.eval respond environment n w = some (a, m, w')) :
    ∃ operations, interrupted respond environment operations program n w = w' := by
  induction program generalizing n w with
  | done b =>
    cases h
    exact ⟨0, rfl⟩
  | ask op next ih =>
    obtain ⟨answer, v, hrespond, h⟩ := eval_ask_eq_some_iff.mp h
    obtain ⟨operations, hoperations⟩ := ih answer h
    refine ⟨operations + 1, ?_⟩
    rw [interrupted, hrespond]
    exact hoperations

def Always (respond : W → (op : Op) → Choice op → Option (Answer op × W))
    (environment : ℕ → (op : Op) → Choice op) (I : W → Prop) (program : Program Op Answer α)
    (n : ℕ) (w : W) : Prop :=
  ∀ operations, I (interrupted respond environment operations program n w)

section

variable {I : W → Prop} {n : ℕ} {w : W}

theorem always_done {a : α} (h : I w) :
    (done a : Program Op Answer α).Always respond environment I n w :=
  fun operations => (interrupted_done operations a n w).symm ▸ h

theorem always_ask {op : Op} {next : Answer op → Program Op Answer α} (h : I w)
    (hnext : ∀ answer v, respond w op (environment n op) = some (answer, v) →
      (next answer).Always respond environment I (n + 1) v) :
    (ask op next).Always respond environment I n w := by
  intro operations
  cases operations with
  | zero => exact h
  | succ operations =>
    rw [interrupted]
    cases hrespond : respond w op (environment n op) with
    | none => exact h
    | some result => exact hnext result.1 result.2 hrespond operations

theorem always_bind {program : Program Op Answer α} {f : α → Program Op Answer β}
    (h : program.Always respond environment I n w)
    (hf : ∀ a m v, program.eval respond environment n w = some (a, m, v) →
      (f a).Always respond environment I m v) :
    (program >>= f).Always respond environment I n w := by
  intro operations
  rcases interrupted_bind operations program f n w with ⟨k, hk⟩ | ⟨a, m, v, k, heval, hk⟩
  · exact hk.symm ▸ h k
  · exact hk.symm ▸ hf a m v heval k

theorem Always.eval {program : Program Op Answer α} {m : ℕ} {v : W} {a : α}
    (h : program.Always respond environment I n w)
    (heval : program.eval respond environment n w = some (a, m, v)) : I v := by
  obtain ⟨operations, rfl⟩ := exists_interrupted heval
  exact h operations

theorem always_exceptBind {ε : Type} {x : ExceptT ε (Program Op Answer) α}
    {f : α → ExceptT ε (Program Op Answer) β} (h : x.run.Always respond environment I n w)
    (hf : ∀ a m v, x.run.eval respond environment n w = some (.ok a, m, v) →
      (f a).run.Always respond environment I m v) :
    (x >>= f).run.Always respond environment I n w := by
  refine always_bind h fun result m v heval => ?_
  cases result with
  | ok a => exact hf a m v heval
  | error e => exact always_done (h.eval heval)

end

theorem always_of_onlyAsks {p : Op → Prop} {I : W → Prop}
    (hkeeps : ∀ w op choice answer w', p op → I w → respond w op choice = some (answer, w') → I w')
    (hasks : program.OnlyAsks p) (hw : I w) : program.Always respond environment I n w := by
  induction program generalizing n w with
  | done b => exact always_done hw
  | ask op next ih =>
    exact always_ask hw fun answer v hrespond =>
      ih answer (hasks.2 answer) (hkeeps w op _ answer v hasks.1 hw hrespond)

end

end Program

/-- A typestate: what may be asked at a level, and the level after the answer. -/
structure Discipline (Op : Type) (Answer : Op → Type) (Level : Type) where
  Allowed : Level → Op → Prop
  after : Level → (op : Op) → Answer op → Level

namespace Program

variable {Op Level : Type} {Answer : Op → Type} {α β : Type} {d : Discipline Op Answer Level}

def Obeys (d : Discipline Op Answer Level) :
    Level → Program Op Answer α → (Level → α → Prop) → Prop
  | level, done a, post => post level a
  | level, ask op next, post =>
    d.Allowed level op ∧ ∀ answer, Obeys d (d.after level op answer) (next answer) post

variable {program : Program Op Answer α}

variable {level : Level}

theorem obeys_bind {f : α → Program Op Answer β} {post : Level → β → Prop}
    (h : Obeys d level program fun level a => Obeys d level (f a) post) :
    Obeys d level (program >>= f) post := by
  induction program generalizing level with
  | done a => exact h
  | ask op next ih => exact ⟨h.1, fun answer => ih answer (h.2 answer)⟩

theorem obeys_mono {pre post : Level → α → Prop} (h : Obeys d level program pre)
    (himp : ∀ level a, pre level a → post level a) : Obeys d level program post := by
  induction program generalizing level with
  | done a => exact himp level a h
  | ask op next ih => exact ⟨h.1, fun answer => ih answer (h.2 answer)⟩

theorem obeys_exceptBind {ε : Type} {x : ExceptT ε (Program Op Answer) α}
    {f : α → ExceptT ε (Program Op Answer) β} {post : Level → Except ε β → Prop}
    (h : Obeys d level x.run fun level result =>
      match result with
      | .ok a => Obeys d level (f a).run post
      | .error e => post level (.error e)) : Obeys d level (x >>= f).run post := by
  refine obeys_bind (obeys_mono h ?_)
  intro level result hresult
  cases result with
  | ok a => exact hresult
  | error e => exact hresult

theorem obeys_of_onlyAsks {p : Op → Prop} (hfree : ∀ level op, p op → d.Allowed level op)
    (h : program.OnlyAsks p) (level : Level) : Obeys d level program fun _ _ => True := by
  induction program generalizing level with
  | done a => trivial
  | ask op next ih => exact ⟨hfree level op h.1, fun answer => ih answer (h.2 answer) _⟩

end Program

namespace Program

section

variable {Op Op' Level : Type} {Answer : Op → Type} {Answer' : Op' → Type} {α : Type}
  (implement : (op : Op) → Program Op' Answer' (Answer op))

/-- The program with a program in the place of every operation. -/
def expand : Program Op Answer α → Program Op' Answer' α
  | done a => done a
  | ask op next => implement op >>= fun answer => (next answer).expand

variable {implement} {d : Discipline Op Answer Level} {d' : Discipline Op' Answer' Level}

/-- **The rule of expansion.**  If the program of every operation moves the levels as the
operation does, an expanded program obeys what the program obeys. -/
theorem obeys_expand
    (himplement : ∀ level op, d.Allowed level op →
      Obeys d' level (implement op) fun level' answer => level' = d.after level op answer)
    {program : Program Op Answer α} {level : Level} {post : Level → α → Prop}
    (h : Obeys d level program post) : Obeys d' level (program.expand implement) post := by
  induction program generalizing level with
  | done a => exact h
  | ask op next ih =>
    refine obeys_bind (obeys_mono (himplement level op h.1) ?_)
    rintro level' answer rfl
    exact ih answer (h.2 answer)

end

end Program

variable {Op Level W : Type} {Answer : Op → Type} {Choice : Op → Type}

/-- A world and the programs that run on it. -/
structure Pool (Op : Type) (Answer : Op → Type) (W : Type) where
  world : W
  threads : List (Program Op Answer Unit)

def Pool.progress (respond : ℕ → W → (op : Op) → Choice op → Option (Answer op × W))
    (pool : Pool Op Answer W) (thread : ℕ) (choose : (op : Op) → Choice op) : Pool Op Answer W :=
  match pool.threads[thread]? with
  | none | some (.done _) => pool
  | some (.ask op next) =>
    match respond thread pool.world op (choose op) with
    | none => pool
    | some (answer, world) => ⟨world, pool.threads.set thread (next answer)⟩

def Pool.Disciplined (d : Discipline Op Answer Level) (I : W → Prop)
    (Means : Level → ℕ → W → Prop) (pool : Pool Op Answer W) : Prop :=
  I pool.world ∧ ∀ (thread : ℕ) (program : Program Op Answer Unit),
    pool.threads[thread]? = some program →
      ∃ level, Means level thread pool.world ∧ program.Obeys d level fun _ _ => True

variable {respond : ℕ → W → (op : Op) → Choice op → Option (Answer op × W)}
  {d : Discipline Op Answer Level} {I : W → Prop} {Means : Level → ℕ → W → Prop}

variable {pool : Pool Op Answer W}

/-- **The rule for interleavings.**  An allowed step keeps the invariant and moves its own
level on, and no thread's step takes away the meaning of another one's level. -/
theorem Pool.disciplined_progress
    (hown : ∀ level thread w op choice answer w', I w → Means level thread w →
      d.Allowed level op → respond thread w op choice = some (answer, w') →
        I w' ∧ Means (d.after level op answer) thread w')
    (hother : ∀ level thread other level' w op choice answer w', thread ≠ other → I w →
      Means level thread w → Means level' other w → d.Allowed level' op →
      respond other w op choice = some (answer, w') → Means level thread w')
    (h : pool.Disciplined d I Means) (thread : ℕ) (choose : (op : Op) → Choice op) :
    (pool.progress respond thread choose).Disciplined d I Means := by
  obtain ⟨hI, hthreads⟩ := h
  unfold Pool.progress
  split
  · exact ⟨hI, hthreads⟩
  · exact ⟨hI, hthreads⟩
  · rename_i op next hget
    obtain ⟨level, hmeans, hallowed, hnext⟩ := hthreads thread _ hget
    split
    · exact ⟨hI, hthreads⟩
    · rename_i answer world hrespond
      obtain ⟨hI', hmeans'⟩ := hown level thread _ op _ answer world hI hmeans hallowed hrespond
      refine ⟨hI', ?_⟩
      intro other program hother'
      by_cases hsame : thread = other
      · subst hsame
        have hlt : thread < pool.threads.length := (List.getElem?_eq_some_iff.mp hget).1
        rw [List.getElem?_set_self hlt, Option.some.injEq] at hother'
        subst hother'
        exact ⟨_, hmeans', hnext answer⟩
      · rw [List.getElem?_set_ne hsame] at hother'
        obtain ⟨level', hmeans'', hobeys⟩ := hthreads other program hother'
        exact ⟨level', hother level' other thread level _ op _ answer world (Ne.symm hsame) hI
          hmeans'' hmeans hallowed hrespond, hobeys⟩

/-- A new thread that obeys the discipline from a level that means nothing may be added. -/
theorem Pool.disciplined_spawn (h : pool.Disciplined d I Means) {program : Program Op Answer Unit}
    {level : Level} (hmeans : Means level pool.threads.length pool.world)
    (hobeys : program.Obeys d level fun _ _ => True) :
    Pool.Disciplined d I Means ⟨pool.world, pool.threads ++ [program]⟩ := by
  refine ⟨h.1, ?_⟩
  intro thread other hget
  rcases Nat.lt_trichotomy thread pool.threads.length with hlt | rfl | hgt
  · rw [List.getElem?_append_left hlt] at hget
    exact h.2 thread other hget
  · rw [List.getElem?_concat_length, Option.some.injEq] at hget
    subst hget
    exact ⟨level, hmeans, hobeys⟩
  · rw [List.getElem?_eq_none (by rw [List.length_append, List.length_singleton]; omega)] at hget
    cases hget

end CopyTrade.Foundation
