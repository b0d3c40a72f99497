import CopyTrade.Analysis.Signer.PlainActions

/-!
# Every order is sent at most once

`submit_ioc` is called behind a record that no later transition takes back, in memory, in every file
and in every registry that is restored; the submission lock keeps the approval and the call
together. A thread may send a request only at the level it reaches by holding the lock, seeing the
entry approved, moving it to `SubmissionStarted` and writing the file (`submissionDiscipline`).
-/

namespace CopyTrade.Analysis

open Foundation Model

variable {D : Type} [Decimal D]

def pastSubmission : SubmissionState D → Bool
  | .authorized | .authorizedNotSubmitted | .nonceAllocated _ | .signed _ => false
  | _ => true

def SentIn (r : SubmissionRegistry D) (cloid : String) : Prop :=
  ∃ intent state, r.byCloid[cloid]? = some (intent, state) ∧ pastSubmission state = true

omit [Decimal D] in
theorem pastSubmission_of_validTransition {current next : SubmissionState D}
    (hpast : pastSubmission current = true) (hvalid : validTransition current next = true) :
    pastSubmission next = true := by
  cases current <;> cases next <;>
    first
    | rfl
    | exact absurd hpast Bool.false_ne_true
    | exact absurd hvalid Bool.false_ne_true

variable {cloid : String}

theorem pastSubmission_of_applies {current next : SubmissionState D}
    (hpast : pastSubmission current = true)
    (happlies : SubmissionRegistry.transitionApplies cloid current next = true) :
    pastSubmission next = true := by
  refine pastSubmission_of_validTransition hpast ?_
  unfold SubmissionRegistry.transitionApplies transitionRefused at happlies
  simp only [Bool.and_eq_true, Bool.not_eq_true', Bool.or_eq_false_iff] at happlies
  simpa using happlies.2.2

theorem sentIn_performed {r next : SubmissionRegistry D} {call : RegistryCall D}
    (hsent : SentIn r cloid) (h : r.Performed call next) : SentIn next cloid := by
  obtain ⟨intent, state, hget, hpast⟩ := hsent
  cases h with
  | registered other hvalid hfresh hopen hroom =>
    refine ⟨intent, state, ?_, hpast⟩
    have hne : other.cloid ≠ cloid := by
      rintro rfl
      rw [hfresh] at hget
      cases hget
    rw [getElem?_insert_of_ne hne]
    exact hget
  | repeated key target recordedAtMs other current hkey hsame => exact ⟨intent, state, hget, hpast⟩
  | moved key target recordedAtMs other current hkey happlies =>
    by_cases hsame : key = cloid
    · subst hsame
      rw [hkey] at hget
      cases hget
      refine ⟨intent, target, ?_, pastSubmission_of_applies hpast happlies⟩
      rw [getElem?_insert_eq, if_pos rfl]
    · refine ⟨intent, state, ?_, hpast⟩
      rw [getElem?_insert_of_ne hsame]
      exact hget
  | counted key observedAtMs requiredConfirmations minimumIntervalMs other current hkey hunknown
      hmore => exact ⟨intent, state, hget, hpast⟩
  | resolved key observedAtMs requiredConfirmations minimumIntervalMs other current hkey
      hunknown hresolves =>
    by_cases hsame : key = cloid
    · subst hsame
      refine ⟨other, .reconciledNotFound, ?_, rfl⟩
      rw [getElem?_insert_eq, if_pos rfl]
    · refine ⟨intent, state, ?_, hpast⟩
      rw [getElem?_insert_of_ne hsame]
      exact hget

theorem sentIn_of_started {r next : SubmissionRegistry D} {nonce recordedAtMs : ℕ}
    (h : r.Performed (.transitionAt cloid (.submissionStarted nonce) recordedAtMs) next) :
    SentIn next cloid := by
  cases h with
  | repeated key target recordedAtMs intent current hget hsame =>
    refine ⟨intent, current, hget, ?_⟩
    cases current <;> first | rfl | exact absurd hsame Bool.false_ne_true
  | moved key target recordedAtMs intent current hget happlies =>
    refine ⟨intent, .submissionStarted nonce, ?_, rfl⟩
    rw [getElem?_insert_eq, if_pos rfl]

omit [Decimal D] in
theorem not_sentIn_of_approved {r : SubmissionRegistry D} {intent : ApprovedExecutionIntent D}
    (h : r.approvedIntent cloid = .ok intent) : ¬ SentIn r cloid := by
  rintro ⟨other, state, hget, hpast⟩
  unfold SubmissionRegistry.approvedIntent at h
  rw [hget] at h
  cases state <;> first | exact absurd hpast Bool.false_ne_true | cases h

theorem eq_of_restore {image r : SubmissionRegistry D} (h : image.restore = .ok r) :
    r = image := by
  unfold SubmissionRegistry.restore at h
  split at h
  · cases h
  obtain ⟨u, hentries, h⟩ := of_bind h
  split at h
  · cases h
  obtain ⟨u, hhistory, h⟩ := of_bind h
  cases h
  rfl

/-- What an operation does to the registry, its file, the requests sent and the holder of the
submission lock. -/
structure Responded (thread : ℕ) (w : SignerWorld D) (op : SignerOp D) (answer : op.Answer)
    (w' : SignerWorld D) : Prop where
  registry : w'.registry = w.registry ∨ ∃ call, w.registry.Performed call w'.registry
  file : w'.registryFile = w.registryFile ∨
    w'.registryFile = some w.registry ∧ w'.registry = w.registry
  sent : w'.submitted = w.submitted ∨
    ∃ request, op = .submitIoc request ∧ w'.submitted = w.submitted ++ [request.cloid]
  holder : w'.submissionHolder = w.submissionHolder ∨
    op = .acquire .submission ∧ w.submissionHolder = none ∨
    op = .release .submission ∧ w.submissionHolder = some thread

theorem responded {thread : ℕ} {w w' : SignerWorld D} {op : SignerOp D} {choice : op.Choice}
    {answer : op.Answer} (h : w.respond thread op choice = some (answer, w')) :
    Responded thread w op answer w' := by
  cases op with
  | acquire lock =>
    cases lock with
    | submission =>
      unfold SignerWorld.respond at h
      dsimp only at h
      split at h
      · cases h
      rename_i hfree
      cases h
      refine ⟨.inl rfl, .inl rfl, .inl rfl, .inr (.inl ⟨rfl, ?_⟩)⟩
      simpa [SignerWorld.holder] using hfree
    | registry =>
      unfold SignerWorld.respond at h
      dsimp only at h
      split at h
      · cases h
      cases h
      exact ⟨.inl rfl, .inl rfl, .inl rfl, .inl rfl⟩
  | release lock =>
    cases lock with
    | submission =>
      unfold SignerWorld.respond at h
      dsimp only at h
      split at h
      · rename_i hheld
        cases h
        exact ⟨.inl rfl, .inl rfl, .inl rfl, .inr (.inr ⟨rfl, hheld⟩)⟩
      · cases h
        exact ⟨.inl rfl, .inl rfl, .inl rfl, .inl rfl⟩
    | registry =>
      unfold SignerWorld.respond at h
      dsimp only at h
      split at h
      · cases h
        exact ⟨.inl rfl, .inl rfl, .inl rfl, .inl rfl⟩
      · cases h
        exact ⟨.inl rfl, .inl rfl, .inl rfl, .inl rfl⟩
  | callRegistry call =>
    unfold SignerWorld.respond at h
    dsimp only at h
    split at h
    · cases h
      exact ⟨.inl rfl, .inl rfl, .inl rfl, .inl rfl⟩
    · rename_i resolved registry hcall
      cases h
      refine ⟨.inr ⟨call, ?_⟩, .inl rfl, .inl rfl, .inl rfl⟩
      exact SubmissionRegistry.perform_eq_ok (SubmissionRegistry.perform_of_answer hcall)
  | persist =>
    cases choice <;> cases h
    · exact ⟨.inl rfl, .inr ⟨rfl, rfl⟩, .inl rfl, .inl rfl⟩
    · exact ⟨.inl rfl, .inl rfl, .inl rfl, .inl rfl⟩
    · exact ⟨.inl rfl, .inr ⟨rfl, rfl⟩, .inl rfl, .inl rfl⟩
  | nextNonce unixMillis =>
    have hnext : (w.allocateNonce unixMillis).2 = w' := congrArg Prod.snd (Option.some.inj h)
    subst hnext
    unfold SignerWorld.allocateNonce
    dsimp only
    split <;> exact ⟨.inl rfl, .inl rfl, .inl rfl, .inl rfl⟩
  | submitIoc request =>
    cases h
    exact ⟨.inl rfl, .inl rfl, .inr ⟨request, rfl, rfl⟩, .inl rfl⟩
  | panic => cases h
  | _ =>
    cases h
    exact ⟨.inl rfl, .inl rfl, .inl rfl, .inl rfl⟩

/-- How far a thread is on its way to `submit_ioc`. -/
inductive SubmissionLevel (D : Type)
  | idle
  | serial
  | seen (registry : SubmissionRegistry D)
  | started (registry : SubmissionRegistry D) (cloid : String)
  | recorded (registry : SubmissionRegistry D) (cloid : String)

def Approved (registry : SubmissionRegistry D) (cloid : String) : Prop :=
  ∃ intent, registry.approvedIntent cloid = .ok intent

def levelAfter : SubmissionLevel D → (op : SignerOp D) → op.Answer → SubmissionLevel D
  | _, .acquire .submission, _ => .serial
  | _, .release .submission, _ => .idle
  | .serial, .readRegistry, registry => .seen registry
  | .seen registry, .callRegistry (.transitionAt cloid (.submissionStarted _) _), answer =>
    match (answer : Except SignerError Bool) with
    | .ok _ => .started registry cloid
    | .error _ => .seen registry
  | .started registry cloid, .persist, answer =>
    match (answer : Except SignerError Unit) with
    | .ok _ => .recorded registry cloid
    | .error _ => .started registry cloid
  | .recorded _ _, .submitIoc _, _ => .serial
  | level, _, _ => level

def submissionDiscipline : Discipline (SignerOp D) SignerOp.Answer (SubmissionLevel D) where
  Allowed level op :=
    match op with
    | .submitIoc request => ∃ registry, level = .recorded registry (toHex request.cloid) ∧
        Approved registry (toHex request.cloid)
    | _ => True
  after := levelAfter

def SeenUnsent (registry : SubmissionRegistry D) (thread : ℕ) (w : SignerWorld D) : Prop :=
  w.submissionHolder = some thread ∧
    ∀ cloid : PlannedCloid, Approved registry (toHex cloid) → cloid ∉ w.submitted

def SentInFile (w : SignerWorld D) (cloid : String) : Prop :=
  ∃ image, w.registryFile = some image ∧ SentIn image cloid

def LevelMeans : SubmissionLevel D → ℕ → SignerWorld D → Prop
  | .idle, _, _ => True
  | .serial, thread, w => w.submissionHolder = some thread
  | .seen registry, thread, w => SeenUnsent registry thread w
  | .started registry cloid, thread, w =>
    SeenUnsent registry thread w ∧ SentIn w.registry cloid
  | .recorded registry cloid, thread, w =>
    SeenUnsent registry thread w ∧ SentIn w.registry cloid ∧ SentInFile w cloid

/-- Nothing was sent twice, and all that was sent is past its start in memory and in the file. -/
structure SentOnce (w : SignerWorld D) : Prop where
  nodup : w.submitted.Nodup
  memory : ∀ cloid ∈ w.submitted, SentIn w.registry (toHex cloid)
  file : ∀ cloid ∈ w.submitted, SentInFile w (toHex cloid)

omit [Decimal D] in
theorem levelMeans_holder {level : SubmissionLevel D} {thread : ℕ} {w : SignerWorld D}
    (h : LevelMeans level thread w) (hlevel : level ≠ .idle) :
    w.submissionHolder = some thread := by
  cases level with
  | idle => exact absurd rfl hlevel
  | serial => exact h
  | seen registry => exact h.1
  | started registry cloid => exact h.1.1
  | recorded registry cloid => exact h.1.1

section

variable {thread : ℕ} {w w' : SignerWorld D} {op : SignerOp D} {answer : op.Answer}

theorem Responded.sentIn (h : Responded thread w op answer w') {cloid : String}
    (hsent : SentIn w.registry cloid) : SentIn w'.registry cloid := by
  rcases h.registry with hsame | ⟨call, hperformed⟩
  · rw [hsame]
    exact hsent
  · exact sentIn_performed hsent hperformed

theorem Responded.sentInFile (h : Responded thread w op answer w') {cloid : String}
    (hsent : SentIn w.registry cloid) (hfile : SentInFile w cloid) : SentInFile w' cloid := by
  rcases h.file with hsame | ⟨hwritten, -⟩
  · obtain ⟨image, himage, hsentImage⟩ := hfile
    exact ⟨image, by rw [hsame, himage], hsentImage⟩
  · exact ⟨w.registry, hwritten, hsent⟩

variable {level : SubmissionLevel D}

theorem levelMeans_other {other' : SubmissionLevel D} {other : ℕ}
    (h : Responded other w op answer w') (hne : thread ≠ other) (hmeans : LevelMeans level thread w)
    (hothers : LevelMeans other' other w) (hallowed : submissionDiscipline.Allowed other' op) :
    LevelMeans level thread w' := by
  by_cases hlevel : level = .idle
  · subst hlevel
    trivial
  have hheld := levelMeans_holder hmeans hlevel
  have hheld' : w'.submissionHolder = some thread := by
    rcases h.holder with hsame | ⟨-, hfree⟩ | ⟨-, hother⟩
    · rw [hsame, hheld]
    · rw [hheld] at hfree
      cases hfree
    · rw [hheld, Option.some.injEq] at hother
      exact absurd hother hne
  have hsubmitted : w'.submitted = w.submitted := by
    rcases h.sent with hsame | ⟨request, rfl, -⟩
    · exact hsame
    · -- Sending needs the lock, which this thread holds.
      obtain ⟨registry, rfl, -⟩ := hallowed
      have hother := levelMeans_holder hothers (by simp)
      rw [hheld, Option.some.injEq] at hother
      exact absurd hother hne
  have hseen : ∀ registry, SeenUnsent registry thread w → SeenUnsent registry thread w' := by
    rintro registry ⟨-, hunsent⟩
    refine ⟨hheld', ?_⟩
    rw [hsubmitted]
    exact hunsent
  cases level with
  | idle => trivial
  | serial => exact hheld'
  | seen registry => exact hseen registry hmeans
  | started registry cloid => exact ⟨hseen registry hmeans.1, h.sentIn hmeans.2⟩
  | recorded registry cloid =>
    exact ⟨hseen registry hmeans.1, h.sentIn hmeans.2.1,
      h.sentInFile hmeans.2.1 hmeans.2.2⟩

theorem sentOnce_respond (h : Responded thread w op answer w') (hw : SentOnce w)
    (hmeans : LevelMeans level thread w) (hallowed : submissionDiscipline.Allowed level op) :
    SentOnce w' := by
  rcases h.sent with hsame | ⟨request, rfl, hsent⟩
  · refine ⟨by rw [hsame]; exact hw.nodup, ?_, ?_⟩
    · intro cloid hmem
      rw [hsame] at hmem
      exact h.sentIn (hw.memory cloid hmem)
    · intro cloid hmem
      rw [hsame] at hmem
      exact h.sentInFile (hw.memory cloid hmem) (hw.file cloid hmem)
  · obtain ⟨registry, rfl, happroved⟩ := hallowed
    obtain ⟨⟨hheld, hunsent⟩, hmemory, hfile⟩ := hmeans
    have hsplit : ∀ cloid ∈ w'.submitted, cloid ∈ w.submitted ∨ cloid = request.cloid := by
      intro cloid hmem
      rw [hsent, List.mem_append, List.mem_singleton] at hmem
      exact hmem
    refine ⟨?_, ?_, ?_⟩
    · rw [hsent, List.nodup_append]
      refine ⟨hw.nodup, List.nodup_singleton _, ?_⟩
      intro a ha b hb hab
      rw [List.mem_singleton] at hb
      subst hab
      subst hb
      exact hunsent _ happroved ha
    · intro cloid hmem
      rcases hsplit cloid hmem with hold | rfl
      · exact h.sentIn (hw.memory cloid hold)
      · exact h.sentIn hmemory
    · intro cloid hmem
      rcases hsplit cloid hmem with hold | rfl
      · exact h.sentInFile (hw.memory cloid hold) (hw.file cloid hold)
      · exact h.sentInFile hmemory hfile

theorem levelMeans_keep (h : Responded thread w op answer w') (hmeans : LevelMeans level thread w)
    (hsend : ∀ request, op ≠ .submitIoc request) (hacquire : op ≠ .acquire .submission)
    (hrelease : op ≠ .release .submission) : LevelMeans level thread w' := by
  have hheld : w'.submissionHolder = w.submissionHolder := by
    rcases h.holder with hsame | ⟨hop, -⟩ | ⟨hop, -⟩
    · exact hsame
    · exact absurd hop hacquire
    · exact absurd hop hrelease
  have hsubmitted : w'.submitted = w.submitted := by
    rcases h.sent with hsame | ⟨request, hop, -⟩
    · exact hsame
    · exact absurd hop (hsend request)
  have hseen : ∀ registry, SeenUnsent registry thread w → SeenUnsent registry thread w' := by
    rintro registry ⟨hthread, hunsent⟩
    unfold SeenUnsent
    rw [hheld, hsubmitted]
    exact ⟨hthread, hunsent⟩
  cases level with
  | idle => trivial
  | serial => exact hheld.trans hmeans
  | seen registry => exact hseen registry hmeans
  | started registry cloid => exact ⟨hseen registry hmeans.1, h.sentIn hmeans.2⟩
  | recorded registry cloid =>
    exact ⟨hseen registry hmeans.1, h.sentIn hmeans.2.1, h.sentInFile hmeans.2.1 hmeans.2.2⟩

theorem levelMeans_own {choice : op.Choice} (hw : SentOnce w) (hmeans : LevelMeans level thread w)
    (hallowed : submissionDiscipline.Allowed level op)
    (hrespond : w.respond thread op choice = some (answer, w')) :
    LevelMeans (levelAfter level op answer) thread w' := by
  have h := responded hrespond
  unfold levelAfter
  split
  · -- The lock is taken.
    unfold SignerWorld.respond at hrespond
    dsimp only at hrespond
    split at hrespond
    · cases hrespond
    cases hrespond
    rfl
  · trivial
  · -- The registry that is read is the one in memory.
    cases hrespond
    refine ⟨hmeans, ?_⟩
    rintro cloid ⟨intent, happroved⟩ hmem
    exact not_sentIn_of_approved happroved (hw.memory cloid hmem)
  · rename_i registry cloid nonce recordedAtMs answer
    have hkeep : LevelMeans (.seen registry) thread w' :=
      levelMeans_keep h hmeans (by simp) (by simp) (by simp)
    split
    · rename_i resolved hanswer
      refine ⟨hkeep, ?_⟩
      unfold SignerWorld.respond at hrespond
      dsimp only at hrespond
      split at hrespond
      · cases hrespond
      · rename_i resolved' next hcall
        cases hrespond
        exact sentIn_of_started
          (SubmissionRegistry.perform_eq_ok (SubmissionRegistry.perform_of_answer hcall))
    · exact hkeep
  · rename_i registry cloid answer
    have hkeep : LevelMeans (.started registry cloid) thread w' :=
      levelMeans_keep h hmeans (by simp) (by simp) (by simp)
    split
    · refine ⟨hkeep.1, hkeep.2, ?_⟩
      cases choice <;> cases hrespond
      exact ⟨w.registry, rfl, hmeans.2⟩
    · exact hkeep
  · cases hrespond
    exact hmeans.1.1
  · rename_i hacquire hrelease hread hstarted hpersist hsubmit
    refine levelMeans_keep h hmeans ?_ ?_ ?_
    · rintro request rfl
      obtain ⟨registry, rfl, -⟩ := hallowed
      exact hsubmit registry _ request answer rfl rfl HEq.rfl
    · rintro rfl
      exact hacquire answer rfl HEq.rfl
    · rintro rfl
      exact hrelease answer rfl HEq.rfl

end

section

omit [Decimal D]

variable {α Level : Type} {d : Discipline (SignerOp D) SignerOp.Answer Level}

theorem obeys_withLock {level : Level} {lock : SignerLock} {body : SignerAction D α}
    {post : Level → Except SignerError α → Prop}
    (hacquire : d.Allowed level (.acquire lock))
    (hrelease : ∀ level, d.Allowed level (.release lock))
    (h : Program.Obeys d (d.after level (.acquire lock) ()) body.run fun level result =>
      post (d.after level (.release lock) ()) result) :
    Program.Obeys d level (SignerAction.withLock lock body).run post := by
  refine ⟨hacquire, fun _ => Program.obeys_bind (Program.obeys_mono h ?_)⟩
  intro level result hpost
  exact ⟨hrelease level, fun _ => hpost⟩

/-- The discipline asks something of a submission only. -/
def RestrictsSubmissions (d : Discipline (SignerOp D) SignerOp.Answer Level) : Prop :=
  ∀ level op, (∀ request, op ≠ .submitIoc request) → d.Allowed level op

theorem restricts_submissionDiscipline : RestrictsSubmissions (submissionDiscipline (D := D)) := by
  intro level op hop
  cases op with
  | submitIoc request => exact absurd rfl (hop request)
  | _ => trivial

theorem obeys_of_quiet (hd : RestrictsSubmissions d) {action : SignerAction D α}
    (h : Quiet action) (level : Level) : Program.Obeys d level action.run fun _ _ => True :=
  Program.obeys_of_onlyAsks hd h level

theorem obeys_transitionAndPersist {registry : SubmissionRegistry D} (cloid : PlannedCloid)
    {state : SubmissionState D} (recordedAtMs : ℕ)
    (hstate : ∀ nonce, state ≠ .submissionStarted nonce) :
    Program.Obeys submissionDiscipline (.seen registry)
      (SignerAction.transitionAndPersist cloid state recordedAtMs).run
      fun level _ => level = .seen registry := by
  have hcall : ∀ answer, levelAfter (.seen registry)
      (.callRegistry (.transitionAt (toHex cloid) state recordedAtMs)) answer =
        .seen registry := by
    intro answer
    cases state with
    | submissionStarted nonce => exact absurd rfl (hstate nonce)
    | _ => rfl
  refine Program.obeys_exceptBind ⟨trivial, fun answer => ?_⟩
  rw [show submissionDiscipline.after = levelAfter from rfl, hcall]
  cases (answer : Except SignerError Bool) with
  | error e => exact rfl
  | ok resolved => exact ⟨trivial, fun _ => rfl⟩

theorem obeys_submissionStarted {registry : SubmissionRegistry D} (cloid : PlannedCloid)
    (nonce recordedAtMs : ℕ) :
    Program.Obeys submissionDiscipline (.seen registry)
      (SignerAction.transitionAndPersist cloid (.submissionStarted nonce) recordedAtMs).run
      fun level result => result = .ok () → level = .recorded registry (toHex cloid) := by
  refine Program.obeys_exceptBind ⟨trivial, fun answer => ?_⟩
  cases (answer : Except SignerError Bool) with
  | error e =>
    intro h
    cases h
  | ok resolved =>
    refine ⟨trivial, fun answer => ?_⟩
    cases (answer : Except SignerError Unit) with
    | error e =>
      intro h
      cases h
    | ok u => exact fun _ => rfl

end

theorem approved_of_approvedRecord {intent : AuthorizedExecutionIntent D}
    {registry : SubmissionRegistry D} (h : approvedRecord intent registry = .ok ()) :
    Approved registry (toHex intent.plannedCloid) := by
  unfold approvedRecord at h
  obtain ⟨persisted, happroved, -⟩ := of_bind h
  exact ⟨persisted, happroved⟩

def Ready (intent : AuthorizedExecutionIntent D) (level : SubmissionLevel D)
    (result : Except SignerError (SignedIocRequest D)) : Prop :=
  ∀ request, result = .ok request → request.cloid = intent.plannedCloid ∧
    ∃ registry, level = .recorded registry (toHex intent.plannedCloid) ∧
      Approved registry (toHex intent.plannedCloid)

omit [Decimal D] in
theorem ready_error (intent : AuthorizedExecutionIntent D) (level : SubmissionLevel D)
    (error : SignerError) : Ready intent level (.error error) := by
  intro request h
  cases h

theorem obeys_signIoc {Level : Type} {d : Discipline (SignerOp D) SignerOp.Answer Level}
    (hd : RestrictsSubmissions d)
    (hsign : ∀ level intent nonce answer, d.after level (.sign intent nonce) answer = level)
    (intent : AuthorizedExecutionIntent D) (nonce : ℕ) (level : Level) :
    Program.Obeys d level (signIoc intent nonce).run fun level' result => level' = level ∧
      ∀ request, result = .ok request →
        request.cloid = intent.plannedCloid ∧ request.nonce = nonce := by
  unfold signIoc
  split
  · refine ⟨rfl, ?_⟩
    intro request h
    cases h
  · refine Program.obeys_exceptBind ⟨hd _ _ (by simp), fun answer => ?_⟩
    rw [hsign]
    cases (answer : Except SignerError (List UInt8)) with
    | error e =>
      refine ⟨rfl, ?_⟩
      intro request h
      cases h
    | ok signature =>
      refine ⟨rfl, ?_⟩
      intro request h
      cases h
      exact ⟨rfl, rfl⟩

theorem obeys_prepareSubmission (intent : AuthorizedExecutionIntent D) (unixMillis : ℕ) :
    Program.Obeys submissionDiscipline .serial (prepareSubmission intent unixMillis).run
      (Ready intent) := by
  refine obeys_withLock trivial (fun _ => trivial) ?_
  refine Program.obeys_exceptBind ⟨trivial, fun registry => ?_⟩
  have hrelease : ∀ level : SubmissionLevel D,
      submissionDiscipline.after level (.release .registry) () = level := by
    intro level
    cases level <;> rfl
  simp only [hrelease]
  refine Program.obeys_exceptBind ?_
  cases hrecord : approvedRecord intent registry with
  | error e => exact ready_error _ _ _
  | ok u =>
    have happroved := approved_of_approvedRecord hrecord
    refine Program.obeys_exceptBind ⟨trivial, fun nonce => ?_⟩
    cases (nonce : Except SignerError ℕ) with
    | error e => exact ready_error _ _ _
    | ok nonce =>
      refine Program.obeys_exceptBind (Program.obeys_mono
        (obeys_transitionAndPersist _ _ (by simp)) ?_)
      rintro level result rfl
      cases result with
      | error e => exact ready_error _ _ _
      | ok u =>
      refine Program.obeys_exceptBind (Program.obeys_mono (obeys_signIoc
        restricts_submissionDiscipline (fun level _ _ _ => by cases level <;> rfl) _ _ _) ?_)
      rintro level result ⟨rfl, hsigned⟩
      cases result with
      | error e => exact ready_error _ _ _
      | ok request =>
      refine Program.obeys_exceptBind (Program.obeys_mono
        (obeys_transitionAndPersist _ _ (by simp)) ?_)
      rintro level result rfl
      cases result with
      | error e => exact ready_error _ _ _
      | ok u =>
      refine Program.obeys_exceptBind (Program.obeys_mono (obeys_submissionStarted _ _ _) ?_)
      intro level result hrecorded
      cases result with
      | error e => exact ready_error _ _ _
      | ok u =>
      obtain rfl := hrecorded rfl
      refine Program.obeys_exceptBind ⟨trivial, fun _ => ?_⟩
      intro sent h
      cases h
      exact ⟨(hsigned _ rfl).1, registry, rfl, happroved⟩

theorem obeys_submitAuthorized (intent : AuthorizedExecutionIntent D) (unixMillis : ℕ) :
    Program.Obeys submissionDiscipline .idle (submitAuthorized intent unixMillis).run
      fun _ _ => True := by
  refine obeys_withLock trivial (fun _ => trivial) ?_
  refine Program.obeys_exceptBind ⟨trivial, fun ready => ?_⟩
  show Program.Obeys _ _ (ExceptT.run (if (!(ready : Bool)) then _ else _)) _
  split
  · trivial
  refine Program.obeys_exceptBind (Program.obeys_mono (obeys_prepareSubmission _ _) ?_)
  intro level result hready
  cases result with
  | error e => trivial
  | ok request =>
    obtain ⟨hcloid, registry, rfl, happroved⟩ := hready request rfl
    refine Program.obeys_exceptBind ⟨⟨registry, ?_, ?_⟩, fun response => ?_⟩
    · rw [hcloid]
    · rw [hcloid]
      exact happroved
    · exact obeys_of_quiet restricts_submissionDiscipline
        (plain_withLock _ (plain_recordResponse _ _ _ _)).quiet _

/-- The programs of the four functions obey a discipline of the submissions, if `submit_authorized`
obeys it. -/
theorem obeys_program [Sha256] [IntentEncoding D] {Level : Type}
    {d : Discipline (SignerOp D) SignerOp.Answer Level} (hd : RestrictsSubmissions d) {idle : Level}
    (hsubmit : ∀ (intent : AuthorizedExecutionIntent D) unixMillis,
      Program.Obeys d idle (submitAuthorized intent unixMillis).run fun _ _ => True)
    (deployment : Deployment) (call : SignerCall D) :
    Program.Obeys d idle (call.program deployment) fun _ _ => True := by
  cases call with
  | authorize intent nowMs =>
    exact Program.obeys_bind (Program.obeys_mono
      (obeys_of_quiet hd (plain_authorize _ _ _).quiet _) fun _ _ _ => trivial)
  | submitAuthorized intent unixMillis =>
    exact Program.obeys_bind (Program.obeys_mono (hsubmit _ _) fun _ _ _ => trivial)
  | reconcileUnknown cloid observedAtMs requiredConfirmations minimumIntervalMs =>
    exact Program.obeys_bind (Program.obeys_mono
      (obeys_of_quiet hd (plain_reconcileUnknown _ _ _ _).quiet _) fun _ _ _ => trivial)
  | reconcileStartup live nowMs requiredConfirmations minimumIntervalMs =>
    exact Program.obeys_of_onlyAsks hd (Program.onlyAsks_bind
      (onlyAsks_reconcileStartup live nowMs requiredConfirmations minimumIntervalMs)
      fun _ => Program.onlyAsks_pure ()) _

theorem sentOnce_restarted {w w' : SignerWorld D} {initialNonce : ℕ} (hw : SentOnce w)
    (h : w.restarted initialNonce = .ok w') : SentOnce w' := by
  unfold SignerWorld.restarted at h
  obtain ⟨registry, hstarting, h⟩ := of_bind h
  obtain ⟨floor, hfloor, h⟩ := of_bind h
  cases h
  refine ⟨hw.nodup, ?_, hw.file⟩
  intro cloid hmem
  obtain ⟨image, himage, hsent⟩ := hw.file cloid hmem
  unfold startingRegistry at hstarting
  rw [himage] at hstarting
  rw [eq_of_restore hstarting]
  exact hsent

omit [Decimal D] in
theorem sentOnce_fresh : SentOnce (SignerWorld.fresh : SignerWorld D) :=
  ⟨List.nodup_nil, fun _ h => (List.not_mem_nil h).elim, fun _ h => (List.not_mem_nil h).elim⟩

def ProcessInvariant (process : SignerProcess D) : Prop :=
  process.pool.Disciplined submissionDiscipline SentOnce LevelMeans

theorem processInvariant_step [Sha256] [IntentEncoding D] (deployment : Deployment)
    {process : SignerProcess D} (h : ProcessInvariant process) (step : ProcessStep D) :
    ProcessInvariant (process.step deployment step) := by
  cases step with
  | call call =>
    unfold SignerProcess.step
    dsimp only
    split
    · exact Pool.disciplined_spawn h (show LevelMeans .idle _ _ from trivial)
        (obeys_program restricts_submissionDiscipline obeys_submitAuthorized deployment call)
    · exact h
  | progress thread choose =>
    refine Pool.disciplined_progress ?_ ?_ h thread choose
    · intro level thread w op choice answer w' hw hmeans hallowed hrespond
      exact ⟨sentOnce_respond (responded hrespond) hw hmeans hallowed,
        levelMeans_own hw hmeans hallowed hrespond⟩
    · intro level thread other level' w op choice answer w' hne hw hmeans hothers hallowed hrespond
      exact levelMeans_other (responded hrespond) hne hmeans hothers hallowed
  | crash => exact ⟨h.1, fun thread program hget => by cases hget⟩
  | start initialNonce =>
    unfold SignerProcess.step
    dsimp only
    split
    · exact h
    split
    · exact h
    · rename_i world hrestarted
      exact ⟨sentOnce_restarted h.1 hrestarted, fun thread program hget => by cases hget⟩

/-- In every interleaving of the four functions, with crashes and restarts anywhere and whatever
the exchange answers, no cloid is submitted twice. -/
theorem submitted_at_most_once [Sha256] [IntentEncoding D] (deployment : Deployment)
    (steps : List (ProcessStep D)) :
    (run (SignerProcess.step deployment) SignerProcess.initial steps).pool.world.submitted.Nodup := by
  have hinitial : ProcessInvariant (SignerProcess.initial : SignerProcess D) :=
    ⟨sentOnce_fresh, fun thread program hget => by cases hget⟩
  have hrun : ProcessInvariant (run (SignerProcess.step deployment) SignerProcess.initial steps) := by
    refine run_invariant ?_ hinitial steps
    intro process step h
    exact processInvariant_step deployment h step
  exact hrun.1.nodup

end CopyTrade.Analysis
