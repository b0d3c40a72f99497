import CopyTrade.Model.Signer.Process

/-!
# Actions that neither submit nor save

Almost all the signer's functions are made of operations that neither send an order nor write the
ledger (`Plain`).  The ledger is written at one place, `applyReading`, and an order is sent at one,
`submitAuthorized`; a function that does the first is still one that sends nothing (`Quiet`).

`Returns` says that an action, run alone as one thread, ends in a value and in which world; its
rules take such a run apart, one operation at a time.
-/

namespace CopyTrade.Analysis

open Foundation Model

variable {D : Type} [Decimal D]

section

variable {α : Type} {thread n m : ℕ} {environment : ℕ → (op : SignerOp D) → op.Choice}
  {w w' : SignerWorld D}

/-- The action, run alone as one thread, ends in a value. -/
def Returns (thread : ℕ) (environment : ℕ → (op : SignerOp D) → op.Choice)
    (action : SignerAction D α) (n : ℕ) (w : SignerWorld D) (a : α) (m : ℕ) (w' : SignerWorld D) :
    Prop :=
  action.run.eval (SignerWorld.respond thread) environment n w = some (.ok a, m, w')

variable {action : SignerAction D α} {a : α} {lock : SignerLock}

theorem exists_returns
    (h : ((action.run.eval (SignerWorld.respond thread) environment n w).any fun outcome =>
      outcome.1.toOption.isSome) = true) :
    ∃ a m w', Returns thread environment action n w a m w' := by
  cases heval : action.run.eval (SignerWorld.respond thread) environment n w with
  | none =>
    rw [heval] at h
    cases h
  | some outcome =>
    obtain ⟨result, m, w'⟩ := outcome
    rw [heval] at h
    cases result with
    | ok a => exact ⟨a, m, w', heval⟩
    | error e => cases h

theorem returns_bind_iff {β : Type} {next : α → SignerAction D β} {b : β} :
    Returns thread environment (action >>= next) n w b m w' ↔
      ∃ a k v, Returns thread environment action n w a k v ∧
        Returns thread environment (next a) k v b m w' :=
  Program.eval_exceptBind_eq_ok_iff

theorem returns_pure_iff {b : α} :
    Returns thread environment (pure a : SignerAction D α) n w b m w' ↔
      a = b ∧ n = m ∧ w = w' := by
  constructor
  · intro h
    cases h
    exact ⟨rfl, rfl, rfl⟩
  · rintro ⟨rfl, rfl, rfl⟩
    rfl

theorem not_returns_throw {error : SignerError} :
    ¬ Returns thread environment (throw error : SignerAction D α) n w a m w' := by
  intro h
  cases h

theorem returns_fromResult_iff {result : Except SignerError α} :
    Returns thread environment (SignerAction.fromResult result : SignerAction D α) n w a m w' ↔
      result = .ok a ∧ n = m ∧ w = w' := by
  constructor
  · intro h
    cases h
    exact ⟨rfl, rfl, rfl⟩
  · rintro ⟨rfl, rfl, rfl⟩
    rfl

theorem returns_attempt_iff {op : SignerOp D} {result : op.Answer → Except SignerError α} :
    Returns thread environment (SignerAction.attempt op result) n w a m w' ↔
      ∃ answer, w.respond thread op (environment n op) = some (answer, w') ∧
        result answer = .ok a ∧ m = n + 1 := by
  refine Program.eval_ask_eq_some_iff.trans ?_
  constructor
  · rintro ⟨answer, v, hrespond, h⟩
    simp only [Program.eval, Option.some.injEq, Prod.mk.injEq] at h
    obtain ⟨hresult, rfl, rfl⟩ := h
    exact ⟨answer, hrespond, hresult, rfl⟩
  · rintro ⟨answer, hrespond, hresult, rfl⟩
    exact ⟨answer, w', hrespond, by rw [Program.eval, hresult]⟩

theorem returns_ask_iff {op : SignerOp D} {answer : op.Answer} :
    Returns thread environment (SignerAction.ask op) n w answer m w' ↔
      w.respond thread op (environment n op) = some (answer, w') ∧ m = n + 1 := by
  refine (show Returns thread environment (SignerAction.attempt op .ok) n w answer m w' ↔ _ from
    returns_attempt_iff).trans ?_
  constructor
  · rintro ⟨other, hrespond, hother, hm⟩
    cases hother
    exact ⟨hrespond, hm⟩
  · rintro ⟨hrespond, hm⟩
    exact ⟨answer, hrespond, rfl, hm⟩

omit [Decimal D] in
theorem fromExchange_eq_ok_iff {result : Except ReconciliationError α} :
    SignerAction.fromExchange result = .ok a ↔ result = .ok a := by
  cases result with
  | ok b => simp [SignerAction.fromExchange]
  | error e => simp [SignerAction.fromExchange]

theorem respond_acquire_eq_some {choice : (SignerOp.acquire (D := D) lock).Choice} {answer : Unit}
    (h : w.respond thread (.acquire lock) choice = some (answer, w')) :
    w.holder lock = none ∧ w' = w.withHolder lock (some thread) := by
  unfold SignerWorld.respond at h
  dsimp only at h
  split at h
  · cases h
  · rename_i hfree
    cases h
    exact ⟨by simpa using hfree, rfl⟩

theorem respond_release {choice : (SignerOp.release (D := D) lock).Choice} {answer : Unit}
    (h : w.respond thread (.release lock) choice = some (answer, w')) :
    w' = if w.holder lock = some thread then w.withHolder lock none else w := by
  unfold SignerWorld.respond at h
  dsimp only at h
  split at h
  · rename_i hheld
    cases h
    rw [if_pos hheld]
  · rename_i hheld
    cases h
    rw [if_neg hheld]

theorem returns_withLock {body : SignerAction D α}
    (h : Returns thread environment (SignerAction.withLock lock body) n w a m w') :
    ∃ k v, Returns thread environment body (n + 1) (w.withHolder lock (some thread)) a k v ∧
      w' = if v.holder lock = some thread then v.withHolder lock none else v := by
  obtain ⟨answer, world, hacquire, hrest⟩ := Program.eval_ask_eq_some_iff.mp h
  obtain ⟨hfree, rfl⟩ := respond_acquire_eq_some hacquire
  obtain ⟨result, k, v, hbody, hrest⟩ := Program.eval_bind_eq_some_iff.mp hrest
  obtain ⟨answer, world, hrelease, hdone⟩ := Program.eval_ask_eq_some_iff.mp hrest
  cases hdone
  exact ⟨k, v, hbody, respond_release hrelease⟩

omit [Decimal D] in
@[simp] theorem withHolder_registry (w : SignerWorld D) (lock : SignerLock) (holder : Option ℕ) :
    (w.withHolder lock holder).registry = w.registry := by
  cases lock <;> rfl

omit [Decimal D] in
theorem released_registry (w : SignerWorld D) (lock : SignerLock) (thread : ℕ) :
    (if w.holder lock = some thread then w.withHolder lock none else w).registry = w.registry := by
  split
  · exact withHolder_registry w lock none
  · rfl

theorem returns_readAccount {account : AccountSnapshot D}
    (h : Returns thread environment readAccount n w account m w') : w' = w := by
  obtain ⟨positions, k, v, hpositions, h⟩ := returns_bind_iff.mp h
  obtain ⟨equity, l, u, hequity, h⟩ := returns_bind_iff.mp h
  obtain ⟨answer, hanswer, -, -⟩ := returns_attempt_iff.mp hpositions
  cases hanswer
  obtain ⟨answer, hanswer, -, -⟩ := returns_attempt_iff.mp hequity
  cases hanswer
  split at h
  · exact (not_returns_throw h).elim
  · exact (returns_pure_iff.mp h).2.2.symm

theorem returns_authorize [Sha256] [IntentEncoding D] {deployment : Deployment}
    {intent : AuthorizedExecutionIntent D} {nowMs sequence : ℕ}
    (h : Returns thread environment (authorize deployment intent nowMs) n w sequence m w') :
    ∃ account filledPositions, validateAuthorizedIntent intent
      (authorizationContext intent nowMs account filledPositions w.registry) w.registry =
        .ok () := by
  obtain ⟨k, v, hbody, -⟩ := returns_withLock h
  obtain ⟨_, k, v, hcanonical, hrest⟩ := returns_bind_iff.mp hbody
  obtain ⟨-, rfl, rfl⟩ := returns_fromResult_iff.mp hcanonical
  obtain ⟨ready, k, v, hready, hrest⟩ := returns_bind_iff.mp hrest
  obtain ⟨hready, rfl⟩ := returns_ask_iff.mp hready
  cases hready
  split at hrest
  · exact (not_returns_throw hrest).elim
  rename_i hready
  obtain ⟨_, k, v, hdeployment, hopen⟩ := returns_bind_iff.mp hrest
  obtain ⟨-, rfl, rfl⟩ := returns_fromResult_iff.mp hdeployment
  obtain ⟨_, k, v, hblocked, hread⟩ := returns_bind_iff.mp hopen
  have hregistry : v.registry = w.registry := by
    obtain ⟨k, u, hlocked, rfl⟩ := returns_withLock hblocked
    obtain ⟨registry, l, u', hregistry, hcheck⟩ := returns_bind_iff.mp hlocked
    obtain ⟨hregistry, rfl⟩ := returns_ask_iff.mp hregistry
    cases hregistry
    obtain ⟨-, rfl, rfl⟩ := returns_fromResult_iff.mp hcheck
    rw [released_registry, withHolder_registry, withHolder_registry]
  obtain ⟨account, k, u, haccount, hfill⟩ := returns_bind_iff.mp hread
  obtain rfl := returns_readAccount haccount
  obtain ⟨filledPositions, l, u', hfilled, hlast⟩ := returns_bind_iff.mp hfill
  obtain ⟨-, rfl, rfl⟩ := returns_fromResult_iff.mp hfilled
  obtain ⟨l, u', hchecked, -⟩ := returns_withLock hlast
  obtain ⟨registry, l, u', hlocked, hchecked⟩ := returns_bind_iff.mp hchecked
  obtain ⟨hlocked, rfl⟩ := returns_ask_iff.mp hlocked
  cases hlocked
  obtain ⟨_, l, u', hcheck, -⟩ := returns_bind_iff.mp hchecked
  rw [withHolder_registry, hregistry] at hcheck
  refine ⟨account, filledPositions, ?_⟩
  unfold checkIntent at hcheck
  split at hcheck
  · obtain ⟨answer, world, hpanic, -⟩ := Program.eval_ask_eq_some_iff.mp hcheck
    cases hpanic
  · exact (not_returns_throw hcheck).elim
  · assumption

end

def PlainOp : SignerOp D → Prop
  | .submitIoc _ | .saveLedger _ => False
  | _ => True

def Plain {α : Type} (action : SignerAction D α) : Prop := action.run.OnlyAsks PlainOp

def Quiet {α : Type} (action : SignerAction D α) : Prop :=
  action.run.OnlyAsks fun op => ∀ request, op ≠ .submitIoc request

omit [Decimal D] in
theorem Plain.quiet {α : Type} {action : SignerAction D α} (h : Plain action) : Quiet action := by
  refine Program.onlyAsks_mono h ?_
  rintro op hop request rfl
  exact hop

section

variable {α β : Type}

section

omit [Decimal D]

theorem plain_bind {action : SignerAction D α} {next : α → SignerAction D β}
    (haction : Plain action) (hnext : ∀ a, Plain (next a)) : Plain (action >>= next) :=
  Program.onlyAsks_exceptBind haction hnext

theorem plain_pure (a : α) : Plain (pure a : SignerAction D α) := trivial

theorem plain_throw (error : SignerError) : Plain (throw error : SignerAction D α) := trivial

theorem plain_fromResult (result : Except SignerError α) :
    Plain (SignerAction.fromResult result : SignerAction D α) := trivial

theorem plain_ask {op : SignerOp D} (h : PlainOp op) :
    Plain (SignerAction.ask op) := ⟨h, fun _ => trivial⟩

theorem plain_attempt {op : SignerOp D} (h : PlainOp op)
    (result : op.Answer → Except SignerError α) : Plain (SignerAction.attempt op result) :=
  ⟨h, fun _ => trivial⟩

theorem plain_withLock (lock : SignerLock) {body : SignerAction D α} (h : Plain body) :
    Plain (SignerAction.withLock lock body) := by
  refine ⟨trivial, fun _ => Program.onlyAsks_bind h ?_⟩
  intro result
  exact ⟨trivial, fun _ => trivial⟩

theorem plain_call (call : RegistryCall D) : Plain (SignerAction.call call) :=
  plain_attempt (by trivial) _

theorem plain_persist : Plain (SignerAction.persist : SignerAction D Unit) :=
  plain_attempt (by trivial) _

theorem plain_transitionAndPersist (cloid : PlannedCloid) (state : SubmissionState D)
    (recordedAtMs : ℕ) : Plain (SignerAction.transitionAndPersist cloid state recordedAtMs) :=
  plain_bind (plain_call _) fun _ => plain_persist

end

theorem plain_readAccount : Plain (readAccount : SignerAction D (AccountSnapshot D)) := by
  refine plain_bind (plain_attempt (by trivial) _) fun positions => ?_
  refine plain_bind (plain_attempt (by trivial) _) fun equity => ?_
  split
  · exact plain_throw _
  · exact plain_pure _

theorem plain_authorize [Sha256] [IntentEncoding D] (deployment : Deployment)
    (intent : AuthorizedExecutionIntent D) (nowMs : ℕ) :
    Plain (authorize deployment intent nowMs) := by
  refine plain_withLock _ (plain_bind (plain_fromResult _) fun _ => ?_)
  refine plain_bind (plain_ask (by trivial)) fun ready => ?_
  split
  · exact plain_throw _
  refine plain_bind (plain_fromResult _) fun _ => ?_
  refine plain_bind (plain_withLock _ ?_) fun _ => ?_
  · exact plain_bind (plain_ask (by trivial)) fun _ => plain_fromResult _
  refine plain_bind plain_readAccount fun account => ?_
  refine plain_bind (plain_fromResult _) fun filledPositions => ?_
  refine plain_withLock _ (plain_bind (plain_ask (by trivial)) fun registry => ?_)
  refine plain_bind ?_ fun _ => ?_
  · unfold checkIntent
    split
    · exact ⟨trivial, fun answer => nomatch (answer : Empty)⟩
    · exact plain_throw _
    · exact plain_pure _
  refine plain_bind ?_ fun _ => ?_
  · unfold recordAuthorization
    split
    · split
      · exact plain_throw _
      · exact plain_call _
    · exact plain_call _
  refine plain_bind plain_persist fun _ => ?_
  exact plain_bind (plain_ask (by trivial)) fun _ => plain_pure _

omit [Decimal D] in
theorem plain_recordResponse (intent : AuthorizedExecutionIntent D) (nonce unixMillis : ℕ)
    (response : Except SubmissionTransportError (SubmissionResponse D)) :
    Plain (recordResponse intent nonce unixMillis response) := by
  unfold recordResponse
  split
  · exact plain_bind (plain_transitionAndPersist _ _ _) fun _ => plain_pure _
  · exact plain_bind (plain_transitionAndPersist _ _ _) fun _ => plain_pure _
  · exact plain_bind (plain_transitionAndPersist _ _ _) fun _ => plain_pure _
  · exact plain_bind (plain_transitionAndPersist _ _ _) fun _ => plain_pure _
  · exact plain_bind (plain_transitionAndPersist _ _ _) fun _ => plain_pure _
  · exact plain_bind (plain_transitionAndPersist _ _ _) fun _ => plain_throw _

omit [Decimal D] in
theorem plain_confirmMissing (cloid : PlannedCloid)
    (observedAtMs requiredConfirmations minimumIntervalMs : ℕ) :
    Plain (confirmMissing (D := D) cloid observedAtMs requiredConfirmations minimumIntervalMs) := by
  refine plain_bind (plain_ask (by trivial)) fun registry => ?_
  split
  · exact plain_throw _
  refine plain_bind (plain_call _) fun resolved => ?_
  refine plain_bind plain_persist fun _ => ?_
  split
  · exact plain_pure _
  refine plain_bind (plain_ask (by trivial)) fun counted => ?_
  split
  · exact plain_throw _
  · exact plain_pure _

theorem plain_reconcileUnknown (cloid : PlannedCloid)
    (observedAtMs requiredConfirmations minimumIntervalMs : ℕ) :
    Plain (reconcileUnknown (D := D) cloid observedAtMs requiredConfirmations
      minimumIntervalMs) := by
  refine plain_bind (plain_attempt (by trivial) _) fun observation => plain_withLock _ ?_
  split
  · exact plain_confirmMissing _ _ _ _
  refine plain_bind (plain_fromResult _) fun state => ?_
  exact plain_bind (plain_transitionAndPersist _ _ _) fun _ => plain_pure _

omit [Decimal D] in
theorem plain_readPages {read : EventCursor → SignerAction D (EventBatch α)}
    (hread : ∀ cursor, Plain (read cursor)) (kind : String) (endTimeMs pages : ℕ)
    (cursor : EventCursor) (all : List α) :
    Plain (readPages read kind endTimeMs pages cursor all) := by
  induction pages generalizing cursor all with
  | zero => exact plain_throw _
  | succ pages ih =>
    unfold readPages
    refine plain_bind (hread cursor) fun page => ?_
    split
    · exact plain_pure _
    split
    · exact plain_throw _
    split
    · exact plain_pure _
    · exact ih _ _

omit [Decimal D] in
theorem plain_readAll {read : EventCursor → SignerAction D (EventBatch α)}
    (hread : ∀ cursor, Plain (read cursor)) (kind : String) (startTimeMs endTimeMs : ℕ) :
    Plain (readAll read kind startTimeMs endTimeMs) := by
  unfold readAll
  split
  · exact plain_pure _
  · exact plain_readPages hread _ _ _ _ _

theorem plain_reconcileEntry (cloid : String)
    (nowMs requiredConfirmations minimumIntervalMs : ℕ) (accepted : SubmissionState D → Bool) :
    Plain (reconcileEntry cloid nowMs requiredConfirmations minimumIntervalMs accepted) := by
  refine plain_bind ?_ fun planned => ?_
  · unfold decodeCloid
    split
    · exact plain_throw _
    · exact plain_pure _
  refine plain_bind (plain_reconcileUnknown _ _ _ _) fun state => ?_
  split
  · exact plain_pure _
  · exact plain_throw _

omit [Decimal D] in
theorem plain_moveEntry (cloid : String) (next : SubmissionState D) (nowMs : ℕ) :
    Plain (moveEntry cloid next nowMs) :=
  plain_withLock _ (plain_bind (plain_call _) fun _ => plain_persist)

theorem plain_startupEntry (nowMs requiredConfirmations minimumIntervalMs : ℕ) (cloid : String)
    (state : SubmissionState D) :
    Plain (startupEntry nowMs requiredConfirmations minimumIntervalMs cloid state) := by
  unfold startupEntry
  split
  · exact plain_moveEntry _ _ _
  · exact plain_moveEntry _ _ _
  · exact plain_moveEntry _ _ _
  · exact plain_bind (plain_moveEntry _ _ _) fun _ => plain_reconcileEntry _ _ _ _ _
  · exact plain_reconcileEntry _ _ _ _ _
  · exact plain_reconcileEntry _ _ _ _ _
  · exact plain_reconcileEntry _ _ _ _ _
  · exact plain_pure _

theorem plain_startupLoop (nowMs requiredConfirmations minimumIntervalMs : ℕ)
    (entries : List (String × ApprovedExecutionIntent D × SubmissionState D)) :
    Plain (startupLoop nowMs requiredConfirmations minimumIntervalMs entries) := by
  induction entries with
  | nil => exact plain_pure _
  | cons entry entries ih => exact plain_bind (plain_startupEntry _ _ _ _ _) fun _ => ih

theorem plain_finishStartup (live : LiveTradingState D) (account : AccountSnapshot D)
    (nowMs requiredConfirmations minimumIntervalMs : ℕ) :
    Plain (finishStartup live account nowMs requiredConfirmations minimumIntervalMs) := by
  refine plain_bind (plain_fromResult _) fun _ => ?_
  refine plain_bind (plain_withLock _ ?_) fun entries => ?_
  · exact plain_bind (plain_ask (by trivial)) fun _ => plain_pure _
  refine plain_bind (plain_startupLoop _ _ _ _) fun _ => ?_
  exact plain_ask (by trivial)

theorem plain_readReconciliation (live : LiveTradingState D) (nowMs : ℕ) :
    Plain (readReconciliation live nowMs) := by
  refine plain_bind (plain_readAll (fun _ => plain_attempt (by trivial) _) _ _ _) fun fills => ?_
  refine plain_bind (plain_readAll (fun _ => plain_attempt (by trivial) _) _ _ _) fun funding => ?_
  exact plain_bind plain_readAccount fun account => plain_pure _

end

theorem onlyAsks_reconcileStartup [Sha256] (live : LiveTradingState D)
    (nowMs requiredConfirmations minimumIntervalMs : ℕ) :
    (reconcileStartup live nowMs requiredConfirmations minimumIntervalMs).OnlyAsks
      fun op => ∀ request, op ≠ .submitIoc request := by
  refine ⟨by simp, fun _ => Program.onlyAsks_bind ?_ ?_⟩
  · refine Program.onlyAsks_exceptBind (plain_readReconciliation _ _).quiet fun reading => ?_
    refine Program.onlyAsks_exceptBind ⟨by simp, fun _ => Program.onlyAsks_bind ?_ ?_⟩
      fun _ => trivial
    · refine Program.onlyAsks_exceptBind (plain_ask (by trivial)).quiet fun registry => ?_
      refine Program.onlyAsks_exceptBind (plain_fromResult _).quiet fun applied => ?_
      exact Program.onlyAsks_exceptBind ⟨by simp, fun _ => trivial⟩ fun _ => trivial
    · exact fun result => ⟨by simp, fun _ => trivial⟩
  · intro result
    split
    · trivial
    · exact Program.onlyAsks_bind (plain_finishStartup _ _ _ _ _).quiet fun _ => trivial

end CopyTrade.Analysis
