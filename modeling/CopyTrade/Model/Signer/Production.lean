import CopyTrade.Foundation.Program
import CopyTrade.Model.Signer.Authorization
import CopyTrade.Model.Signer.Reconciliation
import CopyTrade.Model.Signer.RegistryCalls

/-!
# The production signer

`ProductionSigner` of crates/copytrade-signer/src/production.rs.  Its async functions are
programs over `SignerOp`, one operation for every lock, every access to shared state, every
file write and every call of the exchange, so that they can be run alone or interleaved at
each of these points.  A guard is an `acquire` that is released on every way out (`withLock`);
an early return with `?` is an error of `ExceptT`.

What the exchange, the wallet and the file system answer is the environment's choice
(`SignerOp.Choice`), and `SignerWorld.respond` says what each operation does to the state.
-/

namespace CopyTrade.Model

open Foundation
open Std (ExtTreeMap)

structure SignedIocRequest (D : Type) where
  assetIndex : ℕ
  isBuy : Bool
  limitPrice : D
  quantity : D
  reduceOnly : Bool
  cloid : PlannedCloid
  nonce : ℕ
  signature : List UInt8

inductive SubmissionResponse (D : Type)
  | acknowledged
  | filled (exchangeOrderId : String) (filledQuantity averageFillPrice : D)
  | rejected (reason : String)

inductive SubmissionTransportError
  | unknownResult
  | http (status : ℕ)
  | invalidResponse (message : String)

inductive ReconciliationError
  | http (status : ℕ)
  | transport (message : String)
  | invalidResponse (message : String)
  | arithmetic
  | identityMismatch

/-- `to_string()` of a reconciliation error, its derived `Debug`. -/
def ReconciliationError.text : ReconciliationError → String
  | http status => debugVariant "Http" (toString status)
  | transport message => debugVariant "Transport" (quoted message)
  | invalidResponse message => debugVariant "InvalidResponse" (quoted message)
  | arithmetic => "Arithmetic"
  | identityMismatch => "IdentityMismatch"

inductive OrderObservation (D : Type)
  | notFound
  | opened (exchangeOrderId : String) (originalQuantity remainingQuantity : D)
  | filled (exchangeOrderId : String) (filledQuantity : D)
  | cancelled (exchangeOrderId : String) (filledQuantity : D) (reason : String)
  | rejected (exchangeOrderId reason : String)

/-- The fields of a snapshot that are read: the positions and the account equity. -/
structure ExchangePositionSnapshot (D : Type) where
  positions : ExtTreeMap String D
  accountEquity : D

/-- The locks that are held across an await: `submission_lock` and `registry`. -/
inductive SignerLock
  | submission
  | registry
deriving DecidableEq

/-- The interaction points of the signer's functions. -/
inductive SignerOp (D : Type)
  | acquire (lock : SignerLock)
  | release (lock : SignerLock)
  | readReady
  | writeReady (ready : Bool)
  | readRegistry
  | callRegistry (call : RegistryCall D)
  | persist
  | nextNonce (unixMillis : ℕ)
  | sign (intent : AuthorizedExecutionIntent D) (nonce : ℕ)
  | submitIoc (request : SignedIocRequest D)
  | lookupOrder (cloid : PlannedCloid)
  | readFills (cursor : EventCursor)
  | readFunding (cursor : EventCursor)
  | readPositions
  | readEquity
  | saveLedger (live : LiveTradingState D)
  | panic

namespace SignerOp

variable {D : Type}

/-- What an operation answers.  A registry call answers whether a confirmation resolved its
entry; the other calls answer `true`. -/
def Answer : SignerOp D → Type
  | acquire _ | release _ | writeReady _ => Unit
  | readReady => Bool
  | readRegistry => SubmissionRegistry D
  | callRegistry _ => Except SignerError Bool
  | persist | saveLedger _ => Except SignerError Unit
  | nextNonce _ => Except SignerError ℕ
  | sign _ _ => Except SignerError (List UInt8)
  | submitIoc _ => Except SubmissionTransportError (SubmissionResponse D)
  | lookupOrder _ => Except ReconciliationError (OrderObservation D)
  | readFills _ => Except ReconciliationError (EventBatch (UserFill D))
  | readFunding _ => Except ReconciliationError (EventBatch (FundingRecord D))
  | readPositions => Except ReconciliationError (ExchangePositionSnapshot D)
  | readEquity => Except ReconciliationError D
  | panic => Empty

/-- How an atomic file write ends: it succeeds, fails before the rename, or fails after it. -/
inductive WriteOutcome
  | written
  | failedBefore (error : SignerError)
  | failedAfter (error : SignerError)

def Choice : SignerOp D → Type
  | persist | saveLedger _ => WriteOutcome
  | sign _ _ => Except SignerError (List UInt8)
  | submitIoc _ => Except SubmissionTransportError (SubmissionResponse D)
  | lookupOrder _ => Except ReconciliationError (OrderObservation D)
  | readFills _ => Except ReconciliationError (EventBatch (UserFill D))
  | readFunding _ => Except ReconciliationError (EventBatch (FundingRecord D))
  | readPositions => Except ReconciliationError (ExchangePositionSnapshot D)
  | readEquity => Except ReconciliationError D
  | _ => Unit

end SignerOp

def SignerOp.WriteOutcome.apply {α : Type} (outcome : SignerOp.WriteOutcome) (file : Option α)
    (content : α) : Except SignerError Unit × Option α :=
  match outcome with
  | .written => (.ok (), some content)
  | .failedBefore error => (.error error, file)
  | .failedAfter error => (.error error, some content)

/-- The shared state of `ProductionSigner`, the files it writes and, for the record, the cloids
of the orders sent with `submit_ioc`. -/
structure SignerWorld (D : Type) where
  registry : SubmissionRegistry D
  registryFile : Option (SubmissionRegistry D)
  ledgerFile : Option (LiveTradingState D)
  startupReconciled : Bool
  nonceFloor : ℕ
  submissionHolder : Option ℕ
  registryHolder : Option ℕ
  submitted : List PlannedCloid

variable {D : Type} [Decimal D]

/-- A registry call and whether it resolved a confirmation. -/
def SubmissionRegistry.answer (r : SubmissionRegistry D) (call : RegistryCall D) :
    Except SignerError (Bool × SubmissionRegistry D) :=
  match call with
  | .confirmNotFound cloid observedAtMs requiredConfirmations minimumIntervalMs =>
    r.confirmNotFound cloid observedAtMs requiredConfirmations minimumIntervalMs
  | .register intent => (r.register intent).map fun next => (true, next)
  | .transitionAt cloid next recordedAtMs =>
    (r.transitionAt cloid next recordedAtMs).map fun next => (true, next)

theorem SubmissionRegistry.perform_of_answer {r next : SubmissionRegistry D}
    {call : RegistryCall D} {resolved : Bool} (h : r.answer call = .ok (resolved, next)) :
    r.perform call = .ok next := by
  cases call with
  | register intent =>
    unfold answer at h
    cases hcall : r.register intent with
    | error e =>
      simp only [hcall, Except.map] at h
      cases h
    | ok value =>
      simp only [hcall, Except.map] at h
      cases h
      exact hcall
  | transitionAt cloid target recordedAtMs =>
    unfold answer at h
    cases hcall : r.transitionAt cloid target recordedAtMs with
    | error e =>
      simp only [hcall, Except.map] at h
      cases h
    | ok value =>
      simp only [hcall, Except.map] at h
      cases h
      exact hcall
  | confirmNotFound cloid observedAtMs requiredConfirmations minimumIntervalMs =>
    unfold answer at h
    simp only [perform, h]
    rfl

namespace SignerWorld

def holder (w : SignerWorld D) : SignerLock → Option ℕ
  | .submission => w.submissionHolder
  | .registry => w.registryHolder

def withHolder (w : SignerWorld D) (lock : SignerLock) (holder : Option ℕ) : SignerWorld D :=
  match lock with
  | .submission => { w with submissionHolder := holder }
  | .registry => { w with registryHolder := holder }

/-- `NonceAllocator::next`. -/
def allocateNonce (w : SignerWorld D) (unixMillis : ℕ) :
    Except SignerError ℕ × SignerWorld D :=
  let nonce := max w.nonceFloor unixMillis
  match checkedAddU64 nonce 1 with
  | none => (.error .nonceOverflow, w)
  | some following => (.ok nonce, { w with nonceFloor := following })

/-- What an operation of the thread `thread` does.  A lock that is held blocks, and a panic does
not go on. -/
def respond (thread : ℕ) (w : SignerWorld D) :
    (op : SignerOp D) → op.Choice → Option (op.Answer × SignerWorld D)
  | .acquire lock, _ =>
    if (w.holder lock).isSome then none else some ((), w.withHolder lock (some thread))
  | .release lock, _ =>
    if w.holder lock = some thread then some ((), w.withHolder lock none) else some ((), w)
  | .readReady, _ => some (w.startupReconciled, w)
  | .writeReady ready, _ => some ((), { w with startupReconciled := ready })
  | .readRegistry, _ => some (w.registry, w)
  | .callRegistry call, _ =>
    match w.registry.answer call with
    | .error error => some (.error error, w)
    | .ok (resolved, registry) => some (.ok resolved, { w with registry })
  | .persist, outcome =>
    let written := SignerOp.WriteOutcome.apply outcome w.registryFile w.registry
    some (written.1, { w with registryFile := written.2 })
  | .saveLedger live, outcome =>
    let written := SignerOp.WriteOutcome.apply outcome w.ledgerFile live
    some (written.1, { w with ledgerFile := written.2 })
  | .nextNonce unixMillis, _ => some (w.allocateNonce unixMillis)
  | .submitIoc request, response =>
    some (response, { w with submitted := w.submitted ++ [request.cloid] })
  | .sign _ _, answer => some (answer, w)
  | .lookupOrder _, answer => some (answer, w)
  | .readFills _, answer => some (answer, w)
  | .readFunding _, answer => some (answer, w)
  | .readPositions, answer => some (answer, w)
  | .readEquity, answer => some (answer, w)
  | .panic, _ => none

end SignerWorld

abbrev SignerProgram (D : Type) := Program (SignerOp D) SignerOp.Answer

abbrev SignerAction (D : Type) := ExceptT SignerError (SignerProgram D)

namespace SignerAction

variable {α : Type}

def ask {D : Type} (op : SignerOp D) : SignerAction D op.Answer :=
  ExceptT.lift (Program.perform op)

/-- Asking an operation that answers a value or an error. -/
def attempt {D : Type} (op : SignerOp D) (result : op.Answer → Except SignerError α) :
    SignerAction D α :=
  ExceptT.mk (Program.ask op fun answer => Program.done (result answer))

def fromResult {D : Type} (result : Except SignerError α) : SignerAction D α :=
  Program.ofResult result

/-- A guard: the lock is released on every way out of the body. -/
def withLock {D : Type} (lock : SignerLock) (body : SignerAction D α) : SignerAction D α :=
  ExceptT.mk (Program.ask (.acquire lock) fun _ =>
    body.run >>= fun result => Program.ask (.release lock) fun _ => Program.done result)

/-- `map_err(|error| SignerError::Reconciliation(error.to_string()))`. -/
def fromExchange : Except ReconciliationError α → Except SignerError α
  | .error error => .error (.reconciliation error.text)
  | .ok value => .ok value

def call {D : Type} (call : RegistryCall D) : SignerAction D Bool :=
  attempt (.callRegistry call) id

def persist {D : Type} : SignerAction D Unit := attempt .persist id

def transitionAndPersist {D : Type} (cloid : PlannedCloid) (state : SubmissionState D)
    (recordedAtMs : ℕ) : SignerAction D Unit := do
  let _ ← call (.transitionAt (toHex cloid) state recordedAtMs)
  persist

end SignerAction

open SignerAction

/-- What the process was deployed with. -/
structure Deployment where
  riskPolicyHash : Hash
  configurationHash : Hash
  releaseManifestHash : Hash

structure AccountSnapshot (D : Type) where
  positions : ExtTreeMap String D
  equity : D

def readAccount : SignerAction D (AccountSnapshot D) := do
  let positions ← attempt .readPositions fromExchange
  let equity ← attempt .readEquity fromExchange
  if !Decimal.eqv equity positions.accountEquity then
    throw (.reconciliation "position and equity snapshots disagree")
  else pure ⟨positions.positions, equity⟩

def positionsToNotional (positions : ExtTreeMap String D) (input : PortfolioProjectionInput D) :
    Except SignerError (ExtTreeMap String D) :=
  mapValuesM (fun asset quantity =>
    match input.marketRules[asset]? with
    | none => .error .missingMarketRules
    | some rules =>
      match Decimal.checkedMul quantity rules.markPrice with
      | none => .error .invalidDecimal
      | some notional => .ok notional) positions

/-- The open-order exposure of a registry entry: none for a state other than `UnknownResult`, and
none when the notional cannot be represented. -/
def openOrderExposure (entry : String × ApprovedExecutionIntent D × SubmissionState D) :
    Option (OpenOrderExposure D) :=
  if entry.2.2.isUnknownResult then
    (Decimal.checkedMul entry.2.1.quantity entry.2.1.limitPrice).map fun notional => {
      asset := entry.2.1.asset
      side := some (if entry.2.1.isBuy then .buy else .sell)
      notional := some notional
      lifecycle := .submissionUnknown }
  else none

/-- The projection input rebuilt from the current exchange state and the registry. -/
def rebuiltInput (input : PortfolioProjectionInput D) (equity : D)
    (filledPositions : ExtTreeMap String D) (registry : SubmissionRegistry D) :
    PortfolioProjectionInput D :=
  { input with
    currentEquity := equity
    filledPositions
    acknowledgedOpenOrders := registry.entries.filterMap openOrderExposure
    filledPositionStateComplete := true
    openOrderStateComplete := true }

/-- The state of a cloid is `AuthorizedNotSubmitted`. -/
def isAuthorizedNotSubmitted (registry : SubmissionRegistry D) (cloid : String) : Bool :=
  (registry.state cloid).any fun state => state.eqv .authorizedNotSubmitted

/-- The checks made before the account is read. -/
def checkDeployment (deployment : Deployment) (intent : AuthorizedExecutionIntent D) :
    Except SignerError Unit :=
  if intent.authorization.deployedRiskPolicyHash != deployment.riskPolicyHash
      || intent.riskPolicyHash != deployment.riskPolicyHash then
    .error (.authorization "deployed risk-policy hash mismatch")
  else if intent.configurationHash != deployment.configurationHash
      || intent.releaseManifestHash != deployment.releaseManifestHash then
    .error (.authorization "release/configuration hash mismatch")
  else .ok ()

/-- An intent left `AuthorizedNotSubmitted` blocks all other intents but the reduce-only ones. -/
def checkNotBlocked (intent : AuthorizedExecutionIntent D) (registry : SubmissionRegistry D) :
    Except SignerError Unit :=
  if !intent.reduceOnly && registry.hasAuthorizedNotSubmitted
      && !isAuthorizedNotSubmitted registry (toHex intent.plannedCloid) then
    .error .startupNotReconciled
  else .ok ()

def checkIntent [Sha256] [IntentEncoding D] (intent : AuthorizedExecutionIntent D)
    (context : PreSigningContext D) (registry : SubmissionRegistry D) : SignerAction D Unit :=
  match validateAuthorizedIntent intent context registry with
  | .error .panicked => ExceptT.mk (Program.ask .panic fun answer => nomatch (answer : Empty))
  | .error (.failed failure) => throw (.authorization failure.text)
  | .ok _ => pure ()

def recordAuthorization (intent : AuthorizedExecutionIntent D)
    (registry : SubmissionRegistry D) (nowMs : ℕ) : SignerAction D Bool :=
  if isAuthorizedNotSubmitted registry (toHex intent.plannedCloid) then
    if !(registry.intent (toHex intent.plannedCloid)).any fun existing =>
        existing.eqv (durableIntent intent) then
      throw .cloidMismatch
    else call (.transitionAt (toHex intent.plannedCloid) .authorized nowMs)
  else call (.register (durableIntent intent))

def authorizationContext (intent : AuthorizedExecutionIntent D) (nowMs : ℕ)
    (account : AccountSnapshot D) (filledPositions : ExtTreeMap String D)
    (registry : SubmissionRegistry D) : PreSigningContext D :=
  { intent.authorization with
    nowMono := nowMs
    projectionInput := rebuiltInput intent.authorization.projectionInput account.equity
      filledPositions registry }

/-- `validate_canonical` of the envelope. -/
def checkCanonical [Sha256] [IntentEncoding D] (intent : AuthorizedExecutionIntent D) :
    Except SignerError Unit :=
  match intent.validateCanonical with
  | .error reason => .error (.authorization reason)
  | .ok _ => .ok ()

def authorize [Sha256] [IntentEncoding D] (deployment : Deployment)
    (intent : AuthorizedExecutionIntent D) (nowMs : ℕ) : SignerAction D ℕ :=
  withLock .submission do
    fromResult (checkCanonical intent)
    let ready : Bool ← ask .readReady
    if !ready then throw .startupNotReconciled
    else
      fromResult (checkDeployment deployment intent)
      withLock .registry do
        let registry : SubmissionRegistry D ← ask .readRegistry
        fromResult (checkNotBlocked intent registry)
      let account ← readAccount
      let filledPositions ← fromResult
        (positionsToNotional account.positions intent.authorization.projectionInput)
      withLock .registry do
        let registry : SubmissionRegistry D ← ask .readRegistry
        checkIntent intent (authorizationContext intent nowMs account filledPositions registry)
          registry
        let _ ← recordAuthorization intent registry nowMs
        persist
        let recorded : SubmissionRegistry D ← ask .readRegistry
        pure recorded.durableSequence

inductive ProductionSubmissionResult (D : Type)
  | acknowledged
  | filled (orderId : String) (quantity : D)
  | rejected (reason : String)
  | unknown

/-- `sign_ioc`: the canonical size and price have to exist before the wallet signs. -/
def signIoc (intent : AuthorizedExecutionIntent D) (nonce : ℕ) :
    SignerAction D (SignedIocRequest D) :=
  if Decimal.le intent.limitPrice Decimal.zero || decide (8 < Decimal.scale intent.limitPrice)
      || Decimal.le intent.quantity Decimal.zero || decide (8 < Decimal.scale intent.quantity) then
    throw .invalidDecimal
  else do
    let signature ← attempt (.sign intent nonce) id
    pure {
      assetIndex := intent.assetIndex
      isBuy := intent.side == .buy
      limitPrice := intent.limitPrice
      quantity := intent.quantity
      reduceOnly := intent.reduceOnly
      cloid := intent.plannedCloid
      nonce
      signature }

/-- The durable record of the intent that is about to be submitted. -/
def approvedRecord (intent : AuthorizedExecutionIntent D) (registry : SubmissionRegistry D) :
    Except SignerError Unit := do
  let persisted ← registry.approvedIntent (toHex intent.plannedCloid)
  if !persisted.eqv (durableIntent intent) then
    .error (.authorization "authorized intent differs from durable record")
  else .ok ()

/-- The signed request, with every step on record before it may leave. -/
def prepareSubmission (intent : AuthorizedExecutionIntent D) (unixMillis : ℕ) :
    SignerAction D (SignedIocRequest D) :=
  withLock .registry do
    let registry : SubmissionRegistry D ← ask .readRegistry
    fromResult (approvedRecord intent registry)
    let nonce ← attempt (.nextNonce unixMillis) id
    transitionAndPersist intent.plannedCloid (.nonceAllocated nonce) unixMillis
    let request ← signIoc intent nonce
    transitionAndPersist intent.plannedCloid (.signed nonce) unixMillis
    transitionAndPersist intent.plannedCloid (.submissionStarted nonce) unixMillis
    ask (.writeReady false)
    pure request

def recordResponse (intent : AuthorizedExecutionIntent D) (nonce unixMillis : ℕ)
    (response : Except SubmissionTransportError (SubmissionResponse D)) :
    SignerAction D (ProductionSubmissionResult D) :=
  match response with
  | .ok .acknowledged => do
    transitionAndPersist intent.plannedCloid (.acknowledged (toHex intent.plannedCloid)) unixMillis
    pure .acknowledged
  | .ok (.filled exchangeOrderId filledQuantity _) => do
    transitionAndPersist intent.plannedCloid (.filled exchangeOrderId filledQuantity) unixMillis
    pure (.filled exchangeOrderId filledQuantity)
  | .ok (.rejected reason) => do
    transitionAndPersist intent.plannedCloid (.rejected reason) unixMillis
    pure (.rejected reason)
  | .error .unknownResult | .error (.invalidResponse _) => do
    transitionAndPersist intent.plannedCloid (.unknownResult nonce) unixMillis
    pure .unknown
  | .error (.http status) => do
    -- An HTTP status is a definite refusal before acceptance.
    let reason := "exchange HTTP " ++ toString status
    transitionAndPersist intent.plannedCloid (.rejected reason) unixMillis
    throw (.transport reason)

def submitAuthorized (intent : AuthorizedExecutionIntent D) (unixMillis : ℕ) :
    SignerAction D (ProductionSubmissionResult D) :=
  withLock .submission do
    let ready : Bool ← ask .readReady
    if !ready then throw .startupNotReconciled
    else
      let request ← prepareSubmission intent unixMillis
      let response : Except SubmissionTransportError (SubmissionResponse D) ←
        ask (.submitIoc request)
      withLock .registry (recordResponse intent request.nonce unixMillis response)

/-- The state an order that was found is in. -/
def observedState : OrderObservation D → Except SignerError (SubmissionState D)
  | .notFound => .ok .reconciledNotFound
  | .opened exchangeOrderId originalQuantity remainingQuantity =>
    match Decimal.checkedSub originalQuantity remainingQuantity with
    | none => .error .invalidDecimal
    | some filled =>
      if Decimal.isZero filled then .ok (.acknowledged exchangeOrderId)
      else .ok (.partiallyFilled exchangeOrderId filled)
  | .filled exchangeOrderId filledQuantity => .ok (.filled exchangeOrderId filledQuantity)
  | .cancelled exchangeOrderId filledQuantity _ =>
    .ok (.cancelled (some exchangeOrderId) filledQuantity)
  | .rejected _ reason => .ok (.rejected reason)

/-- One more observation that an order does not exist. -/
def confirmMissing (cloid : PlannedCloid) (observedAtMs requiredConfirmations minimumIntervalMs : ℕ) :
    SignerAction D (SubmissionState D) := do
  let registry : SubmissionRegistry D ← ask .readRegistry
  if !(registry.state (toHex cloid)).any SubmissionState.isUnknownResult then
    throw (.reconciliation "previously observed order is now not found")
  else
    let resolved ← call
      (.confirmNotFound (toHex cloid) observedAtMs requiredConfirmations minimumIntervalMs)
    persist
    if resolved then pure .reconciledNotFound
    else
      let counted : SubmissionRegistry D ← ask .readRegistry
      match counted.state (toHex cloid) with
      | none => throw .unknownCloid
      | some state => pure state

def reconcileUnknown (cloid : PlannedCloid)
    (observedAtMs requiredConfirmations minimumIntervalMs : ℕ) :
    SignerAction D (SubmissionState D) := do
  let observation ← attempt (.lookupOrder cloid) fromExchange
  withLock .registry (match observation with
    | .notFound => confirmMissing cloid observedAtMs requiredConfirmations minimumIntervalMs
    | found => do
      let state ← fromResult (observedState found)
      transitionAndPersist cloid state observedAtMs
      pure state)

/-- The pages of a cursor, joined.  `kind` is the word its errors begin with. -/
def readPages {α : Type} (read : EventCursor → SignerAction D (EventBatch α)) (kind : String)
    (endTimeMs : ℕ) : ℕ → EventCursor → List α → SignerAction D (EventBatch α)
  | 0, _, _ => throw (.reconciliation (kind ++ " pagination limit exceeded"))
  | pages + 1, cursor, all => do
    let page ← read cursor
    if page.records.isEmpty then
      pure ⟨all, ⟨saturatingAdd endTimeMs 1, some endTimeMs⟩⟩
    else if page.nextCursor.startTimeMs ≤ cursor.startTimeMs then
      throw (.reconciliation (kind ++ " pagination cursor did not advance"))
    else if endTimeMs < page.nextCursor.startTimeMs then
      pure ⟨all ++ page.records, page.nextCursor⟩
    else readPages read kind endTimeMs pages page.nextCursor (all ++ page.records)

/-- All records from `startTimeMs` to `endTimeMs`, at most 10 000 pages. -/
def readAll {α : Type} (read : EventCursor → SignerAction D (EventBatch α)) (kind : String)
    (startTimeMs endTimeMs : ℕ) : SignerAction D (EventBatch α) :=
  if endTimeMs < startTimeMs then pure ⟨[], ⟨startTimeMs, some endTimeMs⟩⟩
  else readPages read kind endTimeMs 10000 ⟨startTimeMs, some endTimeMs⟩ []

def readAllFills (startTimeMs endTimeMs : ℕ) : SignerAction D (EventBatch (UserFill D)) :=
  readAll (fun cursor => attempt (.readFills cursor) fromExchange) "fill" startTimeMs
    endTimeMs

def readAllFunding (startTimeMs endTimeMs : ℕ) : SignerAction D (EventBatch (FundingRecord D)) :=
  readAll (fun cursor => attempt (.readFunding cursor) fromExchange) "funding"
    startTimeMs endTimeMs

/-- The account as one startup reconciliation reads it. -/
structure AccountReading (D : Type) where
  fills : EventBatch (UserFill D)
  funding : EventBatch (FundingRecord D)
  account : AccountSnapshot D

def readReconciliation (live : LiveTradingState D) (nowMs : ℕ) :
    SignerAction D (AccountReading D) := do
  let fills ← readAllFills live.fillCursorMs nowMs
  let funding ← readAllFunding live.fundingCursorMs nowMs
  let account ← readAccount
  pure ⟨fills, funding, account⟩

/-- `apply_authenticated_batches` with the save of the ledger, under the registry's lock. -/
def applyReading [Sha256] (live : LiveTradingState D) (reading : AccountReading D) :
    SignerAction D (LiveTradingState D × AppliedExchangeBatch D) :=
  withLock .registry do
    let registry : SubmissionRegistry D ← ask .readRegistry
    let applied ← fromResult (applyAuthenticatedBatches live registry reading.fills reading.funding
      reading.account.equity)
    attempt (.saveLedger applied.1) id
    pure applied

/-- A reconciled state that startup accepts for an order that was acknowledged. -/
def acceptedAtStartup : SubmissionState D → Bool
  | .acknowledged _ | .partiallyFilled _ _ | .filled _ _ | .cancelled _ _ | .rejected _ => true
  | _ => false

def decodeCloid (value : String) : SignerAction D PlannedCloid :=
  match decodePlannedCloid value with
  | none => throw .invalidIntent
  | some cloid => pure cloid

/-- The reconciliation of one entry, which has to end in an accepted state. -/
def reconcileEntry (cloid : String) (nowMs requiredConfirmations minimumIntervalMs : ℕ)
    (accepted : SubmissionState D → Bool) : SignerAction D Unit := do
  let planned ← decodeCloid cloid
  let state ← reconcileUnknown planned nowMs requiredConfirmations minimumIntervalMs
  if accepted state then pure () else throw .startupNotReconciled

/-- A transition of one entry under the registry's lock. -/
def moveEntry (cloid : String) (next : SubmissionState D) (nowMs : ℕ) : SignerAction D Unit :=
  withLock .registry do
    let _ ← call (.transitionAt cloid next nowMs)
    persist

def startupEntry (nowMs requiredConfirmations minimumIntervalMs : ℕ) (cloid : String) :
    SubmissionState D → SignerAction D Unit
  | .authorized | .nonceAllocated _ | .signed _ => moveEntry cloid .authorizedNotSubmitted nowMs
  | .submissionStarted nonce => do
    moveEntry cloid (.unknownResult nonce) nowMs
    reconcileEntry cloid nowMs requiredConfirmations minimumIntervalMs
      fun state => !state.isUnknownResult
  | .unknownResult _ => reconcileEntry cloid nowMs requiredConfirmations minimumIntervalMs
      fun state => !state.isUnknownResult
  | .acknowledged _ | .partiallyFilled _ _ =>
    reconcileEntry cloid nowMs requiredConfirmations minimumIntervalMs acceptedAtStartup
  | _ => pure ()

/-- The loop over the entries as they were at its start. -/
def startupLoop (nowMs requiredConfirmations minimumIntervalMs : ℕ) :
    List (String × ApprovedExecutionIntent D × SubmissionState D) → SignerAction D Unit
  | [] => pure ()
  | entry :: rest => do
    startupEntry nowMs requiredConfirmations minimumIntervalMs entry.1 entry.2.2
    startupLoop nowMs requiredConfirmations minimumIntervalMs rest

/-- The part of `reconcile_startup` after the ledger is saved. -/
def finishStartup (live : LiveTradingState D) (account : AccountSnapshot D)
    (nowMs requiredConfirmations minimumIntervalMs : ℕ) : SignerAction D Unit := do
  fromResult (ledgerResult (live.reconcilePositions account.positions))
  let entries : List (String × ApprovedExecutionIntent D × SubmissionState D) ←
    withLock .registry do
      let registry : SubmissionRegistry D ← ask .readRegistry
      pure registry.entries
  startupLoop nowMs requiredConfirmations minimumIntervalMs entries
  ask (.writeReady true)

/-- `reconcile_startup`: its result and the live state it leaves behind, which is the new one as
soon as the ledger is saved, also when a later check fails. -/
def reconcileStartup [Sha256] (live : LiveTradingState D)
    (nowMs requiredConfirmations minimumIntervalMs : ℕ) :
    SignerProgram D (Except SignerError (AppliedExchangeBatch D) × LiveTradingState D) :=
  Program.ask (.writeReady false) fun _ => do
    let applied ← (do
      let reading ← readReconciliation live nowMs
      let applied ← applyReading live reading
      pure (reading.account, applied) : SignerAction D _).run
    match applied with
    | .error error => pure (.error error, live)
    | .ok (account, next, batch) => do
      let finished ← (finishStartup next account nowMs requiredConfirmations
        minimumIntervalMs).run
      pure (finished.map fun _ => batch, next)

end CopyTrade.Model
