import CopyTrade.Model.Signer.Production

/-!
# The signer as a process

Calls of the signer's four functions run side by side on one process.  They are interleaved at
every operation, the process may die between any two of them, and it starts again from the
registry file alone, as `run` and `ProductionSigner::new` do.

`NonceAllocator::next` is a loop of a load and a compare-and-exchange, and other threads run between
the two: below, the functions are run with that loop in the place of the operation `nextNonce`, next
to threads that call the allocator alone.
-/

namespace CopyTrade.Model

open Foundation

inductive SignerCall (D : Type)
  | authorize (intent : AuthorizedExecutionIntent D) (nowMs : ℕ)
  | submitAuthorized (intent : AuthorizedExecutionIntent D) (unixMillis : ℕ)
  | reconcileUnknown (cloid : PlannedCloid)
      (observedAtMs requiredConfirmations minimumIntervalMs : ℕ)
  | reconcileStartup (live : LiveTradingState D)
      (nowMs requiredConfirmations minimumIntervalMs : ℕ)

variable {D : Type} [Decimal D]

/-- The program of a call; its result goes to the caller. -/
def SignerCall.program [Sha256] [IntentEncoding D] (deployment : Deployment) :
    SignerCall D → SignerProgram D Unit
  | .authorize intent nowMs => do
    let _ ← (Model.authorize deployment intent nowMs).run
    pure ()
  | .submitAuthorized intent unixMillis => do
    let _ ← (Model.submitAuthorized intent unixMillis).run
    pure ()
  | .reconcileUnknown cloid observedAtMs requiredConfirmations minimumIntervalMs => do
    let _ ← (Model.reconcileUnknown cloid observedAtMs requiredConfirmations
      minimumIntervalMs).run
    pure ()
  | .reconcileStartup live nowMs requiredConfirmations minimumIntervalMs => do
    let _ ← Model.reconcileStartup live nowMs requiredConfirmations minimumIntervalMs
    pure ()

def defaultRegistryCapacity : ℕ := 10000

/-- The registry a process starts with: the restored file, or an empty registry where there is
none. -/
def startingRegistry (file : Option (SubmissionRegistry D)) :
    Except SignerError (SubmissionRegistry D) :=
  match file with
  | none => .ok (SubmissionRegistry.empty defaultRegistryCapacity)
  | some image => image.restore

/-- The world of a process that has just started, or its error. -/
def SignerWorld.restarted (w : SignerWorld D) (initialNonce : ℕ) :
    Except SignerError (SignerWorld D) := do
  let registry ← startingRegistry w.registryFile
  let floor ← registry.nextNonceFloor
  pure { w with
    registry
    startupReconciled := false
    nonceFloor := max initialNonce floor
    submissionHolder := none
    registryHolder := none }

/-- The machine before its first start: there are no files. -/
def SignerWorld.fresh : SignerWorld D where
  registry := SubmissionRegistry.empty defaultRegistryCapacity
  registryFile := none
  ledgerFile := none
  startupReconciled := false
  nonceFloor := 0
  submissionHolder := none
  registryHolder := none
  submitted := []

structure SignerProcess (D : Type) where
  running : Bool
  pool : Pool (SignerOp D) SignerOp.Answer (SignerWorld D)

/-- What can happen to the process: a call comes in, a thread makes its next operation, the
process dies, or it is started. -/
inductive ProcessStep (D : Type)
  | call (call : SignerCall D)
  | progress (thread : ℕ) (choose : (op : SignerOp D) → op.Choice)
  | crash
  | start (initialNonce : ℕ)

namespace SignerProcess

def initial : SignerProcess D := ⟨false, ⟨SignerWorld.fresh, []⟩⟩

/-- One step.  A thread at a panic makes no further operation; the process it ends is a
`crash`. -/
def step [Sha256] [IntentEncoding D] (deployment : Deployment) (process : SignerProcess D) :
    ProcessStep D → SignerProcess D
  | .call call =>
    if process.running then
      ⟨true, process.pool.world, process.pool.threads ++ [call.program deployment]⟩
    else process
  | .progress thread choose => ⟨process.running,
      process.pool.progress (fun thread => SignerWorld.respond thread) thread choose⟩
  | .crash => ⟨false, process.pool.world, []⟩
  | .start initialNonce =>
    if process.running then process
    else
      match process.pool.world.restarted initialNonce with
      | .error _ => process
      | .ok world => ⟨true, world, []⟩

end SignerProcess

/-- The signer with its ledger in memory, where it is running, and the number of operations that
have been made. -/
structure LedgerProcess (D : Type) where
  live : Option (LiveTradingState D)
  world : SignerWorld D
  operations : ℕ

/-- What can happen to the ledger: a call of `reconcile_startup`, one that the end of the process
cuts off after some operations, other work of the signer, which leaves the ledger file, and a
start from the persisted ledger. -/
inductive LedgerStep (D : Type)
  | reconcile (nowMs requiredConfirmations minimumIntervalMs : ℕ)
  | crash (nowMs requiredConfirmations minimumIntervalMs operations : ℕ)
  | other (world : SignerWorld D) (operations : ℕ)
  | start (initialNonce : ℕ)

namespace LedgerProcess

/-- A call of `reconcile_startup`.  One that blocks has not come back. -/
def reconcile [Sha256] (environment : ℕ → (op : SignerOp D) → op.Choice)
    (process : LedgerProcess D) (live : LiveTradingState D)
    (nowMs requiredConfirmations minimumIntervalMs : ℕ) : LedgerProcess D :=
  match (reconcileStartup live nowMs requiredConfirmations minimumIntervalMs).eval
      (SignerWorld.respond 0) environment process.operations process.world with
  | none => process
  | some ((_, next), operations, world) => ⟨some next, world, operations⟩

/-- A call of `reconcile_startup` that is cut off. -/
def crash [Sha256] (environment : ℕ → (op : SignerOp D) → op.Choice) (process : LedgerProcess D)
    (live : LiveTradingState D) (nowMs requiredConfirmations minimumIntervalMs operations : ℕ) :
    LedgerProcess D where
  live := none
  world := Program.interrupted (SignerWorld.respond 0) environment operations
    (reconcileStartup live nowMs requiredConfirmations minimumIntervalMs) process.operations
    process.world
  operations := process.operations + operations

/-- A start with the registry and the ledger that are persisted. -/
def start (process : LedgerProcess D) (initialNonce : ℕ) : LedgerProcess D :=
  match process.world.restarted initialNonce, process.world.ledgerFile with
  | .ok world, some live =>
    match live.validateLoaded with
    | .ok _ => ⟨some live, world, process.operations⟩
    | .error _ => process
  | _, _ => process

def step [Sha256] (environment : ℕ → (op : SignerOp D) → op.Choice) (process : LedgerProcess D) :
    LedgerStep D → LedgerProcess D
  | .reconcile nowMs requiredConfirmations minimumIntervalMs =>
    match process.live with
    | none => process
    | some live =>
      process.reconcile environment live nowMs requiredConfirmations minimumIntervalMs
  | .crash nowMs requiredConfirmations minimumIntervalMs operations =>
    match process.live with
    | none => process
    | some live =>
      process.crash environment live nowMs requiredConfirmations minimumIntervalMs operations
  | .other world operations => { process with
      world := { world with ledgerFile := process.world.ledgerFile }
      operations := process.operations + operations }
  | .start initialNonce => if process.live.isSome then process else process.start initialNonce

end LedgerProcess

/-- The interaction points of the signer's functions with those of `NonceAllocator::next`.
`spin` is a loop that is still going round. -/
inductive AllocatorOp (D : Type)
  | signer (op : SignerOp D)
  | load
  | compareExchange (observed following : ℕ)
  | spin

namespace AllocatorOp

variable {D : Type}

/-- What an operation answers; a compare-and-exchange answers whether it exchanged. -/
def Answer : AllocatorOp D → Type
  | signer op => op.Answer
  | load => ℕ
  | compareExchange _ _ => Bool
  | spin => Empty

def Choice : AllocatorOp D → Type
  | signer op => op.Choice
  | _ => Unit

end AllocatorOp

variable {D : Type}

/-- A program over the signer's operations and the allocator's. -/
abbrev AllocatorProgram (D : Type) := Program (AllocatorOp D) AllocatorOp.Answer

/-- `NonceAllocator::next`.  `attempts` says how often the loop goes round before the thread is
left spinning, so every run of the source is one with enough of them. -/
def nextLoop (unixMillis : ℕ) : ℕ → AllocatorProgram D (Except SignerError ℕ)
  | 0 => Program.ask .spin fun answer => nomatch (answer : Empty)
  | attempts + 1 =>
    Program.ask .load fun (observed : ℕ) =>
      let nonce := max observed unixMillis
      match checkedAddU64 nonce 1 with
      | none => Program.done (.error .nonceOverflow)
      | some following =>
        Program.ask (.compareExchange observed following) fun (exchanged : Bool) =>
          if exchanged then Program.done (.ok nonce) else nextLoop unixMillis attempts

def implement (attempts : ℕ) : (op : SignerOp D) → AllocatorProgram D op.Answer
  | .nextNonce unixMillis => nextLoop unixMillis attempts
  | op => Program.ask (.signer op) Program.done

/-- The nonces an operation hands to `submit_ioc`. -/
def SignerOp.handsOver : SignerOp D → List ℕ
  | .submitIoc request => [request.nonce]
  | _ => []

/-- The signer's state and, for the record, the nonces handed over, in their order. -/
structure AllocatorWorld (D : Type) where
  signer : SignerWorld D
  handedOver : List ℕ

variable [Decimal D]

namespace AllocatorWorld

/-- What an operation of the thread `thread` does. -/
def respond (thread : ℕ) (w : AllocatorWorld D) :
    (op : AllocatorOp D) → op.Choice → Option (op.Answer × AllocatorWorld D)
  | .signer op, choice =>
    match w.signer.respond thread op choice with
    | none => none
    | some (answer, signer) => some (answer, ⟨signer, w.handedOver ++ op.handsOver⟩)
  | .load, _ => some (w.signer.nonceFloor, w)
  | .compareExchange observed following, _ =>
    if w.signer.nonceFloor = observed then
      some (true, { w with signer := { w.signer with nonceFloor := following } })
    else some (false, w)
  | .spin, _ => none

end AllocatorWorld

/-- A call of one of the signer's functions, or of the allocator by itself. -/
inductive AllocatorCall (D : Type)
  | signer (call : SignerCall D)
  | allocate (unixMillis : ℕ)

def AllocatorCall.program [Sha256] [IntentEncoding D] (deployment : Deployment) (attempts : ℕ) :
    AllocatorCall D → AllocatorProgram D Unit
  | .signer call => (call.program deployment).expand (implement attempts)
  | .allocate unixMillis => nextLoop unixMillis attempts >>= fun _ => Program.done ()

/-- The process with its allocator taken apart, running or not. -/
structure AllocatorProcess (D : Type) where
  running : Bool
  pool : Pool (AllocatorOp D) AllocatorOp.Answer (AllocatorWorld D)

/-- What can happen to the process. -/
inductive AllocatorStep (D : Type)
  | call (call : AllocatorCall D)
  | progress (thread : ℕ) (choose : (op : AllocatorOp D) → op.Choice)
  | crash
  | start (initialNonce : ℕ)

namespace AllocatorProcess

def initial : AllocatorProcess D := ⟨false, ⟨⟨SignerWorld.fresh, []⟩, []⟩⟩

def step [Sha256] [IntentEncoding D] (deployment : Deployment) (attempts : ℕ)
    (process : AllocatorProcess D) : AllocatorStep D → AllocatorProcess D
  | .call call =>
    if process.running then
      ⟨true, process.pool.world, process.pool.threads ++ [call.program deployment attempts]⟩
    else process
  | .progress thread choose => ⟨process.running,
      process.pool.progress (fun thread => AllocatorWorld.respond thread) thread choose⟩
  | .crash => ⟨false, process.pool.world, []⟩
  | .start initialNonce =>
    if process.running then process
    else
      match process.pool.world.signer.restarted initialNonce with
      | .error _ => process
      | .ok signer => ⟨true, ⟨signer, process.pool.world.handedOver⟩, []⟩

end AllocatorProcess

end CopyTrade.Model
