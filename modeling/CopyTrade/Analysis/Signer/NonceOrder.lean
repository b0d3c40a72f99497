import CopyTrade.Analysis.Signer.AtMostOnce
import CopyTrade.Model.Signer.Process

/-!
# Nonces only grow

A request is handed over with a nonce that was allocated under the submission lock and written to
the registry's file before.  Everything handed over earlier is below the allocator's floor, and the
floor a process starts with is above the nonces in its file.
-/

namespace CopyTrade.Analysis

open Foundation Model
open Std (ExtTreeMap)

variable {D : Type} [Decimal D]

def historyNonces (r : SubmissionRegistry D) : List ℕ :=
  r.history.filterMap fun event => event.state.nonce?

def StatesRecorded (r : SubmissionRegistry D) : Prop :=
  ∀ (cloid : String) (intent : ApprovedExecutionIntent D) (state : SubmissionState D) (nonce : ℕ),
    r.byCloid[cloid]? = some (intent, state) → state.nonce? = some nonce →
      nonce ∈ historyNonces r

def NonceInFile (w : SignerWorld D) (nonce : ℕ) : Prop :=
  ∃ image, w.registryFile = some image ∧ nonce ∈ historyNonces image

omit [Decimal D] in
theorem historyNonces_pushRecord (r : SubmissionRegistry D) (cloid : String)
    (state : SubmissionState D) (recordedAtMs : ℕ) :
    (r.pushRecord cloid state recordedAtMs).filterMap (fun event => event.state.nonce?) =
      historyNonces r ++ state.nonce?.toList := by
  unfold SubmissionRegistry.pushRecord historyNonces
  rw [List.filterMap_append]
  cases hnonce : state.nonce? <;> simp [hnonce]

variable {call : RegistryCall D} {next r : SubmissionRegistry D} {nonce : ℕ}

theorem historyNonces_performed (h : r.Performed call next) (hmem : nonce ∈ historyNonces r) :
    nonce ∈ historyNonces next := by
  cases h with
  | registered intent hvalid hfresh hopen hroom =>
    unfold historyNonces
    rw [historyNonces_pushRecord]
    exact List.mem_append_left _ hmem
  | repeated => exact hmem
  | moved cloid target recordedAtMs intent current hget happlies =>
    unfold historyNonces
    rw [historyNonces_pushRecord]
    exact List.mem_append_left _ hmem
  | counted => exact hmem
  | resolved => exact hmem

theorem historyNonces_transition {cloid : String} {recordedAtMs : ℕ} (hrecorded : StatesRecorded r)
    (h : r.Performed (.transitionAt cloid (.submissionStarted nonce) recordedAtMs) next) :
    nonce ∈ historyNonces next := by
  cases h with
  | repeated key target recordedAtMs intent current hget hsame =>
    -- The entry is in this state already, and its nonce was recorded when it came there.
    refine hrecorded cloid intent current nonce hget ?_
    cases current <;> simp_all [SubmissionState.eqv, SubmissionState.nonce?]
  | moved key target recordedAtMs intent current hget happlies =>
    unfold historyNonces
    rw [historyNonces_pushRecord]
    exact List.mem_append_right _ (by simp [SubmissionState.nonce?])

theorem statesRecorded_performed (hrecorded : StatesRecorded r) (h : r.Performed call next) :
    StatesRecorded next := by
  have hgrow : ∀ nonce, nonce ∈ historyNonces r → nonce ∈ historyNonces next :=
    fun nonce hmem => historyNonces_performed h hmem
  intro cloid intent state nonce hget hnonce
  cases h with
  | registered other hvalid hfresh hopen hroom =>
    simp only [getElem?_insert_eq] at hget
    split at hget
    · cases hget
      cases hnonce
    · exact hgrow _ (hrecorded _ _ _ _ hget hnonce)
  | repeated => exact hrecorded _ _ _ _ hget hnonce
  | moved key target recordedAtMs other current hkey happlies =>
    simp only [getElem?_insert_eq] at hget
    split at hget
    · cases hget
      unfold historyNonces
      rw [historyNonces_pushRecord, hnonce]
      exact List.mem_append_right _ (by simp)
    · exact hgrow _ (hrecorded _ _ _ _ hget hnonce)
  | counted => exact hrecorded _ _ _ _ hget hnonce
  | resolved key observedAtMs requiredConfirmations minimumIntervalMs other current hkey
      hunknown hresolves =>
    simp only [getElem?_insert_eq] at hget
    split at hget
    · cases hget
      cases hnonce
    · exact hrecorded _ _ _ _ hget hnonce

omit [Decimal D] in
theorem lt_nextNonceFloor {floor : ℕ} (h : r.nextNonceFloor = .ok floor)
    (hmem : nonce ∈ historyNonces r) : nonce < floor := by
  unfold SubmissionRegistry.nextNonceFloor at h
  rw [show (r.history.filterMap fun event => event.state.nonce?) = historyNonces r from rfl] at h
  cases hmax : (historyNonces r).max? with
  | none =>
    rw [List.max?_eq_none_iff] at hmax
    rw [hmax] at hmem
    exact absurd hmem List.not_mem_nil
  | some greatest =>
    have hle : nonce ≤ greatest := (List.max?_eq_some_iff.mp hmax).2 nonce hmem
    simp only [hmax] at h
    cases hfloor : checkedAddU64 greatest 1 with
    | none =>
      simp only [hfloor] at h
      cases h
    | some value =>
      simp only [hfloor] at h
      cases h
      obtain ⟨hvalue, -⟩ := checkedAddU64_eq_some_iff.mp hfloor
      omega

/-- How far a thread is on its way to handing a request over. -/
inductive NonceLevel
  | idle
  | serial
  | allocated (nonce : ℕ)
  | started (nonce : ℕ)
  | recorded (nonce : ℕ)

def nonceLevelAfter : NonceLevel → (op : SignerOp D) → op.Answer → NonceLevel
  | _, .acquire .submission, _ => .serial
  | _, .release .submission, _ => .idle
  | .serial, .nextNonce _, answer =>
    match (answer : Except SignerError ℕ) with
    | .ok nonce => .allocated nonce
    | .error _ => .serial
  | .allocated nonce, .callRegistry (.transitionAt _ (.submissionStarted started) _), answer =>
    match (answer : Except SignerError Bool) with
    | .ok _ => if started = nonce then .started nonce else .allocated nonce
    | .error _ => .allocated nonce
  | .started nonce, .persist, answer =>
    match (answer : Except SignerError Unit) with
    | .ok _ => .recorded nonce
    | .error _ => .started nonce
  | .recorded _, .submitIoc _, _ => .serial
  | level, _, _ => level

def nonceDiscipline : Discipline (SignerOp D) SignerOp.Answer NonceLevel where
  Allowed level op :=
    match op with
    | .submitIoc request => level = .recorded request.nonce
    | _ => True
  after := nonceLevelAfter

/-- The discipline of the programs with the allocator taken apart.  An exchange that succeeds
under the lock allocates the nonce below the value it has stored. -/
def allocatorDiscipline : Discipline (AllocatorOp D) AllocatorOp.Answer NonceLevel where
  Allowed level op :=
    match op with
    | .signer (.nextNonce _) => False
    | .signer op => nonceDiscipline.Allowed level op
    | .compareExchange observed following => observed < following
    | _ => True
  after level op answer :=
    match level, op, answer with
    | level, .signer op, answer => nonceLevelAfter level op answer
    | .serial, .compareExchange _ following, exchanged =>
      match (exchanged : Bool) with
      | true => .allocated (following - 1)
      | false => .serial
    | level, _, _ => level

def Next (nonce thread : ℕ) (w : AllocatorWorld D) : Prop :=
  w.signer.submissionHolder = some thread ∧ (∀ earlier ∈ w.handedOver, earlier < nonce) ∧
    nonce < w.signer.nonceFloor

def NonceLevelMeans : NonceLevel → ℕ → AllocatorWorld D → Prop
  | .idle, _, _ => True
  | .serial, thread, w => w.signer.submissionHolder = some thread
  | .allocated nonce, thread, w => Next nonce thread w
  | .started nonce, thread, w => Next nonce thread w ∧ nonce ∈ historyNonces w.signer.registry
  | .recorded nonce, thread, w =>
    Next nonce thread w ∧ nonce ∈ historyNonces w.signer.registry ∧ NonceInFile w.signer nonce

/-- The nonces handed over grow; they are below the floor and on record, in memory and in the
file. -/
structure NoncesGrow (w : AllocatorWorld D) : Prop where
  increasing : w.handedOver.Pairwise (· < ·)
  below : ∀ nonce ∈ w.handedOver, nonce < w.signer.nonceFloor
  memory : ∀ nonce ∈ w.handedOver, nonce ∈ historyNonces w.signer.registry
  file : ∀ nonce ∈ w.handedOver, NonceInFile w.signer nonce
  recorded : StatesRecorded w.signer.registry
  fileRecorded : ∀ image, w.signer.registryFile = some image → StatesRecorded image

theorem nonceFloor_respond {thread : ℕ} {w w' : SignerWorld D} {op : SignerOp D}
    {choice : op.Choice} {answer : op.Answer} (hop : ∀ unixMillis, op ≠ .nextNonce unixMillis)
    (h : w.respond thread op choice = some (answer, w')) : w'.nonceFloor = w.nonceFloor := by
  cases op with
  | acquire lock =>
    unfold SignerWorld.respond at h
    dsimp only at h
    split at h
    · cases h
    · cases lock <;> cases h <;> rfl
  | release lock =>
    unfold SignerWorld.respond at h
    dsimp only at h
    split at h
    · cases lock <;> cases h <;> rfl
    · cases h
      rfl
  | callRegistry call =>
    unfold SignerWorld.respond at h
    dsimp only at h
    split at h <;> cases h <;> rfl
  | nextNonce unixMillis => exact absurd rfl (hop unixMillis)
  | panic => cases h
  | _ =>
    cases h
    rfl

/-- What an operation does to the parts of the world that the levels speak of. -/
structure AllocatorResponded (thread : ℕ) (w : AllocatorWorld D) (op : AllocatorOp D)
    (w' : AllocatorWorld D) : Prop where
  registry : w'.signer.registry = w.signer.registry ∨
    ∃ call, w.signer.registry.Performed call w'.signer.registry
  file : w'.signer.registryFile = w.signer.registryFile ∨
    w'.signer.registryFile = some w.signer.registry ∧ w'.signer.registry = w.signer.registry
  holder : w'.signer.submissionHolder = w.signer.submissionHolder ∨
    op = .signer (.acquire .submission) ∧ w.signer.submissionHolder = none ∨
    op = .signer (.release .submission) ∧ w.signer.submissionHolder = some thread
  floor : w'.signer.nonceFloor = w.signer.nonceFloor ∨
    ∃ following, op = .compareExchange w.signer.nonceFloor following ∧
      w'.signer.nonceFloor = following
  handed : w'.handedOver = w.handedOver ∨
    ∃ request, op = .signer (.submitIoc request) ∧
      w'.handedOver = w.handedOver ++ [request.nonce]

theorem allocatorResponded {thread : ℕ} {w w' : AllocatorWorld D} {op : AllocatorOp D}
    {choice : op.Choice} {answer : op.Answer} {level : NonceLevel}
    (hallowed : allocatorDiscipline.Allowed level op)
    (h : w.respond thread op choice = some (answer, w')) : AllocatorResponded thread w op w' := by
  cases op with
  | signer op =>
    unfold AllocatorWorld.respond at h
    dsimp only at h
    split at h
    · cases h
    rename_i answer' signer hrespond
    cases h
    have hop : ∀ unixMillis, op ≠ .nextNonce unixMillis := by
      rintro unixMillis rfl
      exact hallowed
    have hresponded := responded hrespond
    refine ⟨hresponded.registry, hresponded.file, ?_, .inl (nonceFloor_respond hop hrespond), ?_⟩
    · rcases hresponded.holder with hsame | ⟨rfl, hfree⟩ | ⟨rfl, hheld⟩
      · exact .inl hsame
      · exact .inr (.inl ⟨rfl, hfree⟩)
      · exact .inr (.inr ⟨rfl, hheld⟩)
    · cases op with
      | submitIoc request => exact .inr ⟨request, rfl, rfl⟩
      | _ => exact .inl (List.append_nil _)
  | load =>
    cases h
    exact ⟨.inl rfl, .inl rfl, .inl rfl, .inl rfl, .inl rfl⟩
  | compareExchange observed following =>
    unfold AllocatorWorld.respond at h
    dsimp only at h
    split at h
    · rename_i hfloor
      cases h
      refine ⟨.inl rfl, .inl rfl, .inl rfl, .inr ⟨following, ?_, rfl⟩, .inl rfl⟩
      rw [hfloor]
    · cases h
      exact ⟨.inl rfl, .inl rfl, .inl rfl, .inl rfl, .inl rfl⟩
  | spin => cases h

section

variable {thread : ℕ} {w w' : AllocatorWorld D} {op : AllocatorOp D} {level : NonceLevel}

theorem AllocatorResponded.remembers (h : AllocatorResponded thread w op w') {nonce : ℕ}
    (hmem : nonce ∈ historyNonces w.signer.registry) :
    nonce ∈ historyNonces w'.signer.registry := by
  rcases h.registry with hsame | ⟨call, hperformed⟩
  · rw [hsame]
    exact hmem
  · exact historyNonces_performed hperformed hmem

theorem AllocatorResponded.nonceInFile (h : AllocatorResponded thread w op w') {nonce : ℕ}
    (hmem : nonce ∈ historyNonces w.signer.registry) (hfile : NonceInFile w.signer nonce) :
    NonceInFile w'.signer nonce := by
  rcases h.file with hsame | ⟨hwritten, -⟩
  · obtain ⟨image, himage, hnonce⟩ := hfile
    exact ⟨image, hsame.trans himage, hnonce⟩
  · exact ⟨w.signer.registry, hwritten, hmem⟩

theorem AllocatorResponded.floor_le (h : AllocatorResponded thread w op w')
    (hallowed : allocatorDiscipline.Allowed level op) :
    w.signer.nonceFloor ≤ w'.signer.nonceFloor := by
  rcases h.floor with hsame | ⟨following, rfl, hfollowing⟩
  · exact hsame.ge
  · rw [hfollowing]
    exact Nat.le_of_lt hallowed

omit [Decimal D] in
theorem nonceLevelMeans_holder (h : NonceLevelMeans level thread w) (hlevel : level ≠ .idle) :
    w.signer.submissionHolder = some thread := by
  cases level with
  | idle => exact absurd rfl hlevel
  | serial => exact h
  | allocated nonce => exact h.1
  | started nonce => exact h.1.1
  | recorded nonce => exact h.1.1

variable {level' : NonceLevel}

theorem nonceLevelMeans_keep {actor : ℕ} (h : AllocatorResponded actor w op w')
    (hallowed : allocatorDiscipline.Allowed level' op) (hmeans : NonceLevelMeans level thread w)
    (hholder : w'.signer.submissionHolder = w.signer.submissionHolder)
    (hhanded : w'.handedOver = w.handedOver) : NonceLevelMeans level thread w' := by
  have hnext : ∀ nonce, Next nonce thread w → Next nonce thread w' := by
    rintro nonce ⟨hheld, hearlier, hfloor⟩
    refine ⟨hholder.trans hheld, ?_, hfloor.trans_le (h.floor_le hallowed)⟩
    rw [hhanded]
    exact hearlier
  cases level with
  | idle => trivial
  | serial => exact hholder.trans hmeans
  | allocated nonce => exact hnext nonce hmeans
  | started nonce => exact ⟨hnext nonce hmeans.1, h.remembers hmeans.2⟩
  | recorded nonce =>
    exact ⟨hnext nonce hmeans.1, h.remembers hmeans.2.1, h.nonceInFile hmeans.2.1 hmeans.2.2⟩

theorem nonceLevelMeans_other {other : ℕ} (h : AllocatorResponded other w op w')
    (hne : thread ≠ other) (hmeans : NonceLevelMeans level thread w)
    (hothers : NonceLevelMeans level' other w) (hallowed : allocatorDiscipline.Allowed level' op) :
    NonceLevelMeans level thread w' := by
  by_cases hlevel : level = .idle
  · subst hlevel
    trivial
  have hheld := nonceLevelMeans_holder hmeans hlevel
  refine nonceLevelMeans_keep h hallowed hmeans ?_ ?_
  · rcases h.holder with hsame | ⟨-, hfree⟩ | ⟨-, hother⟩
    · exact hsame
    · rw [hheld] at hfree
      cases hfree
    · rw [hheld, Option.some.injEq] at hother
      exact absurd hother hne
  · rcases h.handed with hsame | ⟨request, rfl, -⟩
    · exact hsame
    · -- Handing over needs the lock, which this thread holds.
      obtain rfl : level' = .recorded request.nonce := hallowed
      have hother := nonceLevelMeans_holder hothers (by simp)
      rw [hheld, Option.some.injEq] at hother
      exact absurd hother hne

theorem noncesGrow_respond (h : AllocatorResponded thread w op w') (hw : NoncesGrow w)
    (hmeans : NonceLevelMeans level thread w) (hallowed : allocatorDiscipline.Allowed level op) :
    NoncesGrow w' := by
  have hrecorded : StatesRecorded w'.signer.registry := by
    rcases h.registry with hsame | ⟨call, hperformed⟩
    · rw [hsame]
      exact hw.recorded
    · exact statesRecorded_performed hw.recorded hperformed
  have hfile : ∀ image, w'.signer.registryFile = some image → StatesRecorded image := by
    intro image himage
    rcases h.file with hsame | ⟨hwritten, -⟩
    · exact hw.fileRecorded image (hsame ▸ himage)
    · rw [hwritten, Option.some.injEq] at himage
      exact himage ▸ hw.recorded
  have hfloor := h.floor_le hallowed
  rcases h.handed with hsame | ⟨request, rfl, hhanded⟩
  · refine ⟨hsame ▸ hw.increasing, ?_, ?_, ?_, hrecorded, hfile⟩ <;>
      intro nonce hmem <;> rw [hsame] at hmem
    · exact (hw.below nonce hmem).trans_le hfloor
    · exact h.remembers (hw.memory nonce hmem)
    · exact h.nonceInFile (hw.memory nonce hmem) (hw.file nonce hmem)
  · -- The request is handed over: its nonce comes after all the earlier ones.
    obtain rfl : level = .recorded request.nonce := hallowed
    obtain ⟨⟨hheld, hearlier, hbelow⟩, hmemory, hinFile⟩ := hmeans
    have hsplit : ∀ nonce ∈ w'.handedOver, nonce ∈ w.handedOver ∨ nonce = request.nonce := by
      intro nonce hmem
      rw [hhanded, List.mem_append, List.mem_singleton] at hmem
      exact hmem
    refine ⟨?_, ?_, ?_, ?_, hrecorded, hfile⟩
    · rw [hhanded, List.pairwise_append]
      refine ⟨hw.increasing, List.pairwise_singleton _ _, ?_⟩
      intro earlier hmem nonce hnonce
      rw [List.mem_singleton] at hnonce
      exact hnonce ▸ hearlier earlier hmem
    · intro nonce hmem
      rcases hsplit nonce hmem with hold | rfl
      · exact (hw.below nonce hold).trans_le hfloor
      · exact hbelow.trans_le hfloor
    · intro nonce hmem
      rcases hsplit nonce hmem with hold | rfl
      · exact h.remembers (hw.memory nonce hold)
      · exact h.remembers hmemory
    · intro nonce hmem
      rcases hsplit nonce hmem with hold | rfl
      · exact h.nonceInFile (hw.memory nonce hold) (hw.file nonce hold)
      · exact h.nonceInFile hmemory hinFile

theorem nonceLevelMeans_signer {op : SignerOp D} {choice : op.Choice} {answer : op.Answer}
    (hw : NoncesGrow w) (hmeans : NonceLevelMeans level thread w)
    (hallowed : allocatorDiscipline.Allowed level (.signer op))
    (hrespond : w.respond thread (.signer op) choice = some (answer, w')) :
    NonceLevelMeans (nonceLevelAfter level op answer) thread w' := by
  have h := allocatorResponded hallowed hrespond
  unfold AllocatorWorld.respond at hrespond
  dsimp only at hrespond
  split at hrespond
  · cases hrespond
  rename_i answer' signer hsigner
  cases hrespond
  have hkeep (hacquire : op ≠ .acquire .submission) (hrelease : op ≠ .release .submission)
      (hsend : ∀ request, op ≠ .submitIoc request) :
      NonceLevelMeans level thread ⟨signer, w.handedOver ++ op.handsOver⟩ := by
    refine nonceLevelMeans_keep h hallowed hmeans ?_ ?_
    · rcases h.holder with hsame | ⟨hop, -⟩ | ⟨hop, -⟩
      · exact hsame
      · exact absurd (AllocatorOp.signer.inj hop) hacquire
      · exact absurd (AllocatorOp.signer.inj hop) hrelease
    · rcases h.handed with hsame | ⟨request, hop, -⟩
      · exact hsame
      · exact absurd (AllocatorOp.signer.inj hop) (hsend request)
  unfold nonceLevelAfter
  split
  · -- The lock is taken.
    unfold SignerWorld.respond at hsigner
    dsimp only at hsigner
    split at hsigner
    · cases hsigner
    cases hsigner
    rfl
  · trivial
  · exact absurd hallowed id
  · rename_i nonce cloid started recordedAtMs answer
    have hnext := hkeep (by simp) (by simp) (by simp)
    split
    · rename_i resolved hanswer
      split
      · rename_i hstarted
        subst hstarted
        refine ⟨hnext, ?_⟩
        unfold SignerWorld.respond at hsigner
        dsimp only at hsigner
        split at hsigner
        · cases hsigner
        · rename_i resolved' next hcall
          cases hsigner
          exact historyNonces_transition hw.recorded
            (SubmissionRegistry.perform_eq_ok (SubmissionRegistry.perform_of_answer hcall))
      · exact hnext
    · exact hnext
  · rename_i nonce answer
    have hnext := hkeep (by simp) (by simp) (by simp)
    split
    · refine ⟨hnext.1, hnext.2, ?_⟩
      cases choice <;> cases hsigner
      exact ⟨w.signer.registry, rfl, hmeans.2⟩
    · exact hnext
  · cases hsigner
    exact hmeans.1.1
  · rename_i hacquire hrelease hnonce hstarted hpersist hsubmit
    refine hkeep ?_ ?_ ?_
    · rintro rfl
      exact hacquire answer rfl HEq.rfl
    · rintro rfl
      exact hrelease answer rfl HEq.rfl
    · rintro request rfl
      obtain rfl : level = .recorded request.nonce := hallowed
      exact hsubmit _ request answer rfl rfl HEq.rfl

theorem nonceLevelMeans_own {choice : op.Choice} {answer : op.Answer}
    (hw : NoncesGrow w) (hmeans : NonceLevelMeans level thread w)
    (hallowed : allocatorDiscipline.Allowed level op)
    (hrespond : w.respond thread op choice = some (answer, w')) :
    NonceLevelMeans (allocatorDiscipline.after level op answer) thread w' := by
  have h := allocatorResponded hallowed hrespond
  cases op with
  | signer op => exact nonceLevelMeans_signer hw hmeans hallowed hrespond
  | load =>
    cases hrespond
    cases level <;> exact hmeans
  | compareExchange observed following =>
    have hkeep : NonceLevelMeans level thread w' := by
      refine nonceLevelMeans_keep h hallowed hmeans ?_ ?_
      · rcases h.holder with hsame | ⟨hop, -⟩ | ⟨hop, -⟩
        · exact hsame
        · cases hop
        · cases hop
      · rcases h.handed with hsame | ⟨request, hop, -⟩
        · exact hsame
        · cases hop
    cases level with
    | serial =>
      unfold AllocatorWorld.respond at hrespond
      dsimp only at hrespond
      split at hrespond
      · -- The exchange succeeds: what was handed over is below the value it compared with.
        rename_i hfloor
        cases hrespond
        have hlt : observed < following := hallowed
        refine ⟨hmeans, ?_, Nat.sub_lt (by omega) one_pos⟩
        intro earlier hmem
        have hbelow := hw.below earlier hmem
        omega
      · cases hrespond
        exact hkeep
    | _ => exact hkeep
  | spin => cases hrespond

end

section

omit [Decimal D]

variable {α : Type}

theorem restricts_nonceDiscipline : RestrictsSubmissions (nonceDiscipline (D := D)) := by
  intro level op hop
  cases op with
  | submitIoc request => exact absurd rfl (hop request)
  | _ => trivial

theorem nonceObeys_transition {nonce : ℕ} (cloid : PlannedCloid) {state : SubmissionState D}
    (recordedAtMs : ℕ) (hstate : ∀ nonce, state ≠ .submissionStarted nonce) :
    Program.Obeys nonceDiscipline (.allocated nonce)
      (SignerAction.transitionAndPersist cloid state recordedAtMs).run
      fun level _ => level = .allocated nonce := by
  have hcall : ∀ answer, nonceLevelAfter (.allocated nonce)
      (.callRegistry (.transitionAt (toHex cloid) state recordedAtMs)) answer =
        .allocated nonce := by
    intro answer
    cases state with
    | submissionStarted nonce => exact absurd rfl (hstate nonce)
    | _ => rfl
  refine Program.obeys_exceptBind ⟨trivial, fun answer => ?_⟩
  rw [show nonceDiscipline.after = nonceLevelAfter from rfl, hcall]
  cases (answer : Except SignerError Bool) with
  | error e => exact rfl
  | ok resolved => exact ⟨trivial, fun _ => rfl⟩

theorem nonceObeys_submissionStarted (cloid : PlannedCloid) (nonce recordedAtMs : ℕ) :
    Program.Obeys nonceDiscipline (.allocated nonce)
      (SignerAction.transitionAndPersist (D := D) cloid (.submissionStarted nonce) recordedAtMs).run
      fun level result => result = .ok () → level = .recorded nonce := by
  refine Program.obeys_exceptBind ⟨trivial, fun answer => ?_⟩
  cases (answer : Except SignerError Bool) with
  | error e =>
    intro h
    cases h
  | ok resolved =>
    have hlevel : nonceDiscipline.after (.allocated nonce)
        (.callRegistry (.transitionAt (toHex cloid)
          (.submissionStarted nonce : SubmissionState D) recordedAtMs)) (Except.ok resolved) =
        .started nonce := if_pos rfl
    rw [hlevel]
    refine ⟨trivial, fun answer => ?_⟩
    cases (answer : Except SignerError Unit) with
    | error e =>
      intro h
      cases h
    | ok u => exact fun _ => rfl

def ReadyNonce (level : NonceLevel) (result : Except SignerError (SignedIocRequest D)) : Prop :=
  ∀ request, result = .ok request → level = .recorded request.nonce

theorem readyNonce_error (level : NonceLevel) (error : SignerError) :
    ReadyNonce (D := D) level (.error error) := by
  intro request h
  cases h

end

theorem nonceObeys_prepareSubmission (intent : AuthorizedExecutionIntent D) (unixMillis : ℕ) :
    Program.Obeys nonceDiscipline .serial (prepareSubmission intent unixMillis).run
      ReadyNonce := by
  refine obeys_withLock trivial (fun _ => trivial) ?_
  refine Program.obeys_exceptBind ⟨trivial, fun registry => ?_⟩
  have hrelease : ∀ level, (nonceDiscipline (D := D)).after level (.release .registry) () =
      level := by
    intro level
    cases level <;> rfl
  simp only [hrelease]
  refine Program.obeys_exceptBind ?_
  cases hrecord : approvedRecord intent registry with
  | error e => exact readyNonce_error _ _
  | ok u =>
    refine Program.obeys_exceptBind ⟨trivial, fun nonce => ?_⟩
    cases (nonce : Except SignerError ℕ) with
    | error e => exact readyNonce_error _ _
    | ok nonce =>
      refine Program.obeys_exceptBind (Program.obeys_mono
        (nonceObeys_transition _ _ (by simp)) ?_)
      rintro level result rfl
      cases result with
      | error e => exact readyNonce_error _ _
      | ok u =>
      refine Program.obeys_exceptBind (Program.obeys_mono (obeys_signIoc
        restricts_nonceDiscipline (fun level _ _ _ => by cases level <;> rfl) _ _ _) ?_)
      rintro level result ⟨rfl, hsigned⟩
      cases result with
      | error e => exact readyNonce_error _ _
      | ok request =>
      refine Program.obeys_exceptBind (Program.obeys_mono
        (nonceObeys_transition _ _ (by simp)) ?_)
      rintro level result rfl
      cases result with
      | error e => exact readyNonce_error _ _
      | ok u =>
      refine Program.obeys_exceptBind (Program.obeys_mono (nonceObeys_submissionStarted _ _ _) ?_)
      intro level result hrecorded
      cases result with
      | error e => exact readyNonce_error _ _
      | ok u =>
      obtain rfl := hrecorded rfl
      refine Program.obeys_exceptBind ⟨trivial, fun _ => ?_⟩
      intro sent h
      cases h
      rw [(hsigned _ rfl).2]
      rfl

theorem nonceObeys_submitAuthorized (intent : AuthorizedExecutionIntent D) (unixMillis : ℕ) :
    Program.Obeys nonceDiscipline .idle (submitAuthorized intent unixMillis).run
      fun _ _ => True := by
  refine obeys_withLock trivial (fun _ => trivial) ?_
  refine Program.obeys_exceptBind ⟨trivial, fun ready => ?_⟩
  show Program.Obeys _ _ (ExceptT.run (if (!(ready : Bool)) then _ else _)) _
  split
  · trivial
  refine Program.obeys_exceptBind (Program.obeys_mono (nonceObeys_prepareSubmission _ _) ?_)
  intro level result hready
  cases result with
  | error e => trivial
  | ok request =>
    obtain rfl := hready request rfl
    refine Program.obeys_exceptBind ⟨rfl, fun response => ?_⟩
    exact obeys_of_quiet restricts_nonceDiscipline
      (plain_withLock _ (plain_recordResponse _ _ _ _)).quiet _

omit [Decimal D] in
theorem obeys_nextLoop (unixMillis attempts : ℕ) (level : NonceLevel) :
    Program.Obeys (allocatorDiscipline (D := D)) level (nextLoop unixMillis attempts)
      fun level' answer => level' = nonceLevelAfter (D := D) level (.nextNonce unixMillis) answer := by
  induction attempts with
  | zero => exact ⟨trivial, fun answer => nomatch (answer : Empty)⟩
  | succ attempts ih =>
    refine ⟨trivial, fun (observed : ℕ) => ?_⟩
    have hload : allocatorDiscipline.after level (.load : AllocatorOp D) observed = level := by
      cases level <;> rfl
    rw [hload]
    dsimp only
    cases hfollowing : checkedAddU64 (max observed unixMillis) 1 with
    | none => cases level <;> rfl
    | some following =>
      obtain ⟨hvalue, -⟩ := checkedAddU64_eq_some_iff.mp hfollowing
      have hlt : observed < following := by omega
      refine ⟨hlt, fun (exchanged : Bool) => ?_⟩
      cases exchanged with
      | true =>
        have hnonce : max observed unixMillis = following - 1 := by omega
        dsimp only
        rw [if_pos rfl, hnonce]
        cases level <;> rfl
      | false =>
        have hsame : allocatorDiscipline.after level
            (.compareExchange observed following : AllocatorOp D) false = level := by
          cases level <;> rfl
        rw [hsame]
        exact ih

omit [Decimal D] in
theorem obeys_implement (attempts : ℕ) (level : NonceLevel) (op : SignerOp D)
    (hallowed : nonceDiscipline.Allowed level op) :
    Program.Obeys allocatorDiscipline level (implement attempts op)
      fun level' answer => level' = nonceDiscipline.after level op answer := by
  cases op with
  | nextNonce unixMillis => exact obeys_nextLoop unixMillis attempts level
  | submitIoc request => exact ⟨hallowed, fun _ => rfl⟩
  | _ => exact ⟨trivial, fun _ => rfl⟩

theorem obeys_allocatorCall [Sha256] [IntentEncoding D] (deployment : Deployment) (attempts : ℕ)
    (call : AllocatorCall D) :
    Program.Obeys allocatorDiscipline .idle (call.program deployment attempts)
      fun _ _ => True := by
  cases call with
  | signer call =>
    exact Program.obeys_expand (obeys_implement attempts)
      (obeys_program restricts_nonceDiscipline nonceObeys_submitAuthorized deployment call)
  | allocate unixMillis =>
    exact Program.obeys_bind (Program.obeys_mono (obeys_nextLoop unixMillis attempts .idle)
      fun _ _ _ => trivial)

theorem noncesGrow_restarted {w : AllocatorWorld D} {signer : SignerWorld D} {initialNonce : ℕ}
    (hw : NoncesGrow w) (h : w.signer.restarted initialNonce = .ok signer) :
    NoncesGrow ⟨signer, w.handedOver⟩ := by
  unfold SignerWorld.restarted at h
  obtain ⟨registry, hstarting, h⟩ := of_bind h
  obtain ⟨floor, hfloor, h⟩ := of_bind h
  cases h
  have himage : ∀ image, w.signer.registryFile = some image → registry = image := by
    intro image himage
    unfold startingRegistry at hstarting
    rw [himage] at hstarting
    exact eq_of_restore hstarting
  have hmemory : ∀ nonce ∈ w.handedOver, nonce ∈ historyNonces registry := by
    intro nonce hmem
    obtain ⟨image, hfile, hnonce⟩ := hw.file nonce hmem
    exact himage image hfile ▸ hnonce
  refine ⟨hw.increasing, ?_, hmemory, hw.file, ?_, hw.fileRecorded⟩
  · intro nonce hmem
    exact lt_max_of_lt_right (lt_nextNonceFloor hfloor (hmemory nonce hmem))
  · cases hfile : w.signer.registryFile with
    | none =>
      unfold startingRegistry at hstarting
      rw [hfile] at hstarting
      cases hstarting
      intro cloid intent state nonce hget
      rw [show (SubmissionRegistry.empty defaultRegistryCapacity : SubmissionRegistry D).byCloid =
        ∅ from rfl, ExtTreeMap.getElem?_empty] at hget
      cases hget
    | some image => exact himage image hfile ▸ hw.fileRecorded image hfile

omit [Decimal D] in
theorem noncesGrow_fresh : NoncesGrow (⟨SignerWorld.fresh, []⟩ : AllocatorWorld D) := by
  refine ⟨List.Pairwise.nil, fun _ h => (List.not_mem_nil h).elim,
    fun _ h => (List.not_mem_nil h).elim, fun _ h => (List.not_mem_nil h).elim, ?_, ?_⟩
  · intro cloid intent state nonce hget
    rw [show (SignerWorld.fresh : SignerWorld D).registry.byCloid = ∅ from rfl,
      ExtTreeMap.getElem?_empty] at hget
    cases hget
  · intro image h
    cases h

def AllocatorInvariant (process : AllocatorProcess D) : Prop :=
  process.pool.Disciplined allocatorDiscipline NoncesGrow NonceLevelMeans

theorem allocatorInvariant_step [Sha256] [IntentEncoding D] (deployment : Deployment)
    (attempts : ℕ) {process : AllocatorProcess D} (h : AllocatorInvariant process)
    (step : AllocatorStep D) : AllocatorInvariant (process.step deployment attempts step) := by
  cases step with
  | call call =>
    unfold AllocatorProcess.step
    dsimp only
    split
    · exact Pool.disciplined_spawn h (show NonceLevelMeans .idle _ _ from trivial)
        (obeys_allocatorCall deployment attempts call)
    · exact h
  | progress thread choose =>
    refine Pool.disciplined_progress ?_ ?_ h thread choose
    · intro level thread w op choice answer w' hw hmeans hallowed hrespond
      exact ⟨noncesGrow_respond (allocatorResponded hallowed hrespond) hw hmeans hallowed,
        nonceLevelMeans_own hw hmeans hallowed hrespond⟩
    · intro level thread other level' w op choice answer w' hne hw hmeans hothers hallowed hrespond
      exact nonceLevelMeans_other (allocatorResponded hallowed hrespond) hne hmeans hothers hallowed
  | crash => exact ⟨h.1, fun thread program hget => by cases hget⟩
  | start initialNonce =>
    unfold AllocatorProcess.step
    dsimp only
    split
    · exact h
    split
    · exact h
    · rename_i signer hrestarted
      exact ⟨noncesGrow_restarted h.1 hrestarted, fun thread program hget => by cases hget⟩

/-- **Nonces are never reused.**  However the calls and the allocator's loops interleave and
wherever the process dies and starts again, every request is handed over with a greater nonce than
all the requests before it. -/
theorem handed_over_nonces_increase [Sha256] [IntentEncoding D] (deployment : Deployment)
    (attempts : ℕ) (steps : List (AllocatorStep D)) :
    (run (AllocatorProcess.step deployment attempts) AllocatorProcess.initial
      steps).pool.world.handedOver.Pairwise (· < ·) := by
  have hinitial : AllocatorInvariant (AllocatorProcess.initial : AllocatorProcess D) :=
    ⟨noncesGrow_fresh, fun thread program hget => by cases hget⟩
  have hrun : AllocatorInvariant
      (run (AllocatorProcess.step deployment attempts) AllocatorProcess.initial steps) := by
    refine run_invariant ?_ hinitial steps
    intro process step h
    exact allocatorInvariant_step deployment attempts h step
  exact hrun.1.increasing

end CopyTrade.Analysis
