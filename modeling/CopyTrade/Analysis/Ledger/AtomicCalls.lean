import CopyTrade.Model.Core.LedgerInPlace

/-!
# Which failures leave the ledger alone

Each mutator in place computes what the function without a state computes, and a failure leaves the
ledger alone exactly when all values that are written in front of the failing check are the ones
that are there.
-/

namespace CopyTrade.Analysis

open Foundation
open Foundation.InPlace
open Model
open Model.EpisodeBook

variable {D : Type} [Decimal D]

/-- A fraction of a cost added to what is charged already. -/
def chargedCost (current value fraction : D) : Option D :=
  (Decimal.checkedMul value fraction).bind fun part => Decimal.checkedAdd current part

theorem addFraction_eq (current value fraction : D) (name : String) :
    addFraction current value fraction name = orOverflow name (chargedCost current value fraction) := by
  unfold addFraction chargedCost
  cases Decimal.checkedMul value fraction with
  | none => rfl
  | some part => rfl

/-- The costs that are written in turn, each with the value that is there. -/
def chargeWrites (episode : OpenEpisode D) (execution : ShadowExecution D) (fraction : D) :
    List (Option D × D) :=
  [(chargedCost episode.fees execution.fees fraction, episode.fees),
    (chargedCost episode.funding execution.funding fraction, episode.funding),
    (chargedCost episode.slippage execution.slippage fraction, episode.slippage)]

variable {operation : String}

theorem eq_none_of_orOverflow {α : Type} {x : Option α} {e : LedgerError}
    (h : orOverflow operation x = .error e) : x = none := by
  cases x with
  | none => rfl
  | some value => cases h

theorem eq_some_of_orOverflow {α : Type} {x : Option α} {value : α}
    (h : orOverflow operation x = .ok value) : x = some value :=
  orOverflow_eq_ok_iff.mp h

/-- What a fill in the direction of an episode writes in turn. -/
def growWrites (episode : OpenEpisode D) (execution : ShadowExecution D) (price signedDelta : D) :
    List (Option D × D) :=
  ((do
    let total ← Decimal.checkedAdd (Decimal.abs episode.signedQuantity) (Decimal.abs signedDelta)
    let oldValue ← Decimal.checkedMul (Decimal.abs episode.signedQuantity) episode.averageEntryPrice
    let addedValue ← Decimal.checkedMul (Decimal.abs signedDelta) price
    let value ← Decimal.checkedAdd oldValue addedValue
    Decimal.checkedDiv value total), episode.averageEntryPrice) ::
  (Decimal.checkedAdd episode.signedQuantity signedDelta, episode.signedQuantity) ::
  ((do
    let addedValue ← Decimal.checkedMul (Decimal.abs signedDelta) price
    Decimal.checkedAdd episode.entryNotional addedValue), episode.entryNotional) ::
  chargeWrites episode execution Decimal.one

def pnlPerUnit (episode : OpenEpisode D) (price : D) : Option D :=
  if Decimal.isSignPositive episode.signedQuantity then
    Decimal.checkedSub price episode.averageEntryPrice
  else Decimal.checkedSub episode.averageEntryPrice price

def realizedAfterClose (episode : OpenEpisode D) (price closingQuantity : D) : Option D :=
  pnlPerUnit episode price >>= fun unit =>
    Decimal.checkedMul unit closingQuantity >>= Decimal.checkedAdd episode.realizedPnl

def exitAfterClose (episode : OpenEpisode D) (price closingQuantity : D) : Option D :=
  Decimal.checkedMul price closingQuantity >>= Decimal.checkedAdd episode.exitNotional

def quantityAfterClose (episode : OpenEpisode D) (closingQuantity : D) : Option D :=
  Decimal.checkedAdd episode.signedQuantity
    (if Decimal.isSignPositive episode.signedQuantity then Decimal.neg closingQuantity
    else closingQuantity)

/-- What a fill against the direction of an episode writes in turn. -/
def reduceWrites (episode : OpenEpisode D) (execution : ShadowExecution D)
    (price closingQuantity closingFraction : D) : List (Option D × D) :=
  (realizedAfterClose episode price closingQuantity, episode.realizedPnl) ::
  (exitAfterClose episode price closingQuantity, episode.exitNotional) ::
  (chargeWrites episode execution closingFraction ++
    [(quantityAfterClose episode closingQuantity, episode.signedQuantity)])

section

variable {episode first : OpenEpisode D} (execution : ShadowExecution D)

theorem addCostsInPlace_behaves (hfees : episode.fees = first.fees)
    (hfunding : episode.funding = first.funding) (hslippage : episode.slippage = first.slippage)
    (fraction : D) :
    Behaves (OpenEpisode.addCostsInPlace execution fraction) episode first
      (addCosts episode execution fraction)
      (episode = first ∧ KeepsUntilFailure (chargeWrites episode execution fraction)) := by
  unfold addCosts OpenEpisode.addCostsInPlace chargeWrites
  simp only [addFraction_eq]
  refine behaves_assign_bind ?_ ?_
  · intro e hfails
    rw [eq_none_of_orOverflow hfails]
    simp
  · intro fees hfeesOk
    rw [eq_some_of_orOverflow hfeesOk]
    refine behaves_assign_bind ?_ ?_
    · intro e hfails
      rw [eq_none_of_orOverflow hfails]
      cases episode
      cases first
      simp at *
      grind
    · intro funding hfundingOk
      rw [eq_some_of_orOverflow hfundingOk]
      refine behaves_assign ?_
      intro e hfails
      rw [eq_none_of_orOverflow hfails]
      cases episode
      cases first
      simp at *
      grind

theorem growInPlace_behaves (price signedDelta : D) :
    Behaves (OpenEpisode.growInPlace execution price signedDelta) episode episode
      (grow episode execution price signedDelta)
      (KeepsUntilFailure (growWrites episode execution price signedDelta)) := by
  unfold grow OpenEpisode.growInPlace growWrites
  apply behaves_read_bind
  refine behaves_check_bind ?_ ?_
  · intro e hfails
    simp [eq_none_of_orOverflow hfails]
  intro total htotal
  rw [eq_some_of_orOverflow htotal]
  refine behaves_check_bind ?_ ?_
  · intro e hfails
    simp [eq_none_of_orOverflow hfails]
  intro oldValue hold
  rw [eq_some_of_orOverflow hold]
  refine behaves_check_bind ?_ ?_
  · intro e hfails
    simp [eq_none_of_orOverflow hfails]
  intro addedValue hadded
  rw [eq_some_of_orOverflow hadded]
  refine behaves_assign_bind ?_ ?_
  · intro e hfails
    have hnone := eq_none_of_orOverflow hfails
    simp [hnone]
  intro average haverage
  have haverage := eq_some_of_orOverflow haverage
  refine behaves_assign_bind ?_ ?_
  · intro e hfails
    have hnone := eq_none_of_orOverflow hfails
    cases episode
    simp_all
  intro quantity hquantity
  have hquantity := eq_some_of_orOverflow hquantity
  refine behaves_assign_bind ?_ ?_
  · intro e hfails
    have hnone := eq_none_of_orOverflow hfails
    cases episode
    simp_all
    tauto
  intro entry hentry
  have hentry := eq_some_of_orOverflow hentry
  refine Behaves.congr (addCostsInPlace_behaves execution ?_ ?_ ?_ Decimal.one) ?_
  · rfl
  · rfl
  · rfl
  · intro e _
    cases episode
    simp_all [chargeWrites]
    tauto

omit execution in
theorem addCosts_eq_ok {execution : ShadowExecution D} {fraction : D} {next : OpenEpisode D}
    (h : addCosts episode execution fraction = .ok next) : ∃ fees funding slippage,
      chargedCost episode.fees execution.fees fraction = some fees ∧
      chargedCost episode.funding execution.funding fraction = some funding ∧
      chargedCost episode.slippage execution.slippage fraction = some slippage ∧
      next = { episode with fees, funding, slippage } := by
  unfold addCosts at h
  simp only [addFraction_eq] at h
  obtain ⟨fees, hfees, h⟩ := of_bind h
  obtain ⟨funding, hfunding, h⟩ := of_bind h
  obtain ⟨slippage, hslippage, h⟩ := of_bind h
  exact ⟨fees, funding, slippage, eq_some_of_orOverflow hfees, eq_some_of_orOverflow hfunding,
    eq_some_of_orOverflow hslippage, (pure_eq_ok_iff.mp h).symm⟩

omit execution in
theorem exists_none_of_addCosts {execution : ShadowExecution D} {fraction : D} {e : LedgerError}
    (h : addCosts episode execution fraction = .error e) :
    ∃ entry ∈ chargeWrites episode execution fraction, entry.1 = none := by
  by_contra hall
  unfold addCosts at h
  simp only [addFraction_eq] at h
  simp only [chargeWrites, List.mem_cons, List.not_mem_nil, or_false, exists_eq_or_imp,
    exists_eq_left, not_or] at hall
  obtain ⟨hfees, hfunding, hslippage⟩ := hall
  obtain ⟨fees, hfees⟩ := Option.ne_none_iff_exists'.mp hfees
  obtain ⟨funding, hfunding⟩ := Option.ne_none_iff_exists'.mp hfunding
  obtain ⟨slippage, hslippage⟩ := Option.ne_none_iff_exists'.mp hslippage
  rw [hfees, hfunding, hslippage] at h
  cases h

theorem keepsUntilFailure_append_of_failure {V : Type} {front back : List (Option V × V)}
    (h : ∃ entry ∈ front, entry.1 = none) :
    KeepsUntilFailure (front ++ back) ↔ KeepsUntilFailure front := by
  induction front with
  | nil => simp at h
  | cons entry front ih =>
    obtain ⟨new, old⟩ := entry
    cases new with
    | none => simp
    | some value =>
      obtain ⟨failing, hmem, hnone⟩ := h
      rcases List.mem_cons.mp hmem with rfl | hmem
      · cases hnone
      · simp [ih ⟨failing, hmem, hnone⟩]

omit [Decimal D] in
theorem orOverflow_bind (operation : String) (x : Option D) (f : D → Option D) :
    (orOverflow operation x >>= fun value => orOverflow operation (f value)) =
      orOverflow operation (x >>= f) := by
  cases x with
  | none => rfl
  | some value => rfl

omit [Decimal D] in
theorem orOverflow_bind_bind {α : Type} (operation : String) (x : Option D) (f : D → Option D)
    (g : D → Except LedgerError α) :
    (orOverflow operation x >>= fun value => orOverflow operation (f value) >>= g) =
      orOverflow operation (x >>= f) >>= g := by
  cases x with
  | none => rfl
  | some value => rfl

omit [Decimal D] execution in
theorem withRealizedPnl_eq_iff {realizedPnl : D} :
    { episode with realizedPnl } = episode ↔ realizedPnl = episode.realizedPnl := by
  cases episode
  simp

omit [Decimal D] execution in
theorem withExit_eq_iff {realizedPnl exitNotional : D} :
    { episode with realizedPnl, exitNotional } = episode ↔
      realizedPnl = episode.realizedPnl ∧ exitNotional = episode.exitNotional := by
  cases episode
  simp [and_comm]

theorem reduceInPlace_behaves (price closingQuantity closingFraction : D) :
    Behaves (OpenEpisode.reduceInPlace execution price closingQuantity closingFraction) episode
      episode (reduce episode execution price closingQuantity closingFraction)
      (KeepsUntilFailure (reduceWrites episode execution price closingQuantity closingFraction)) := by
  unfold reduce OpenEpisode.reduceInPlace reduceWrites realizedAfterClose exitAfterClose
  apply behaves_read_bind
  refine behaves_check_bind ?_ ?_
  · intro e hfails
    simp [pnlPerUnit, eq_none_of_orOverflow hfails]
  intro unit hunit
  have hunit : pnlPerUnit episode price = some unit := eq_some_of_orOverflow hunit
  simp only [hunit, orOverflow_bind, orOverflow_bind_bind, Option.bind_eq_bind, Option.bind_some]
  refine behaves_assign_bind ?_ ?_
  · intro e hfails
    have hnone := eq_none_of_orOverflow hfails
    simp [hnone]
  intro realizedPnl hrealized
  have hrealized := eq_some_of_orOverflow hrealized
  rw [hrealized]
  refine behaves_assign_bind ?_ ?_
  · intro e hfails
    have hnone := eq_none_of_orOverflow hfails
    simp [withRealizedPnl_eq_iff, hnone]
  intro exitNotional hexit
  have hexit := eq_some_of_orOverflow hexit
  rw [hexit]
  simp only [keepsUntilFailure_some, ← and_assoc]
  refine Behaves.bind (Behaves.congr (addCostsInPlace_behaves execution ?_ ?_ ?_ closingFraction) ?_) ?_
  · rfl
  · rfl
  · rfl
  · intro e hfails
    have hnone := exists_none_of_addCosts hfails
    rw [withExit_eq_iff, keepsUntilFailure_append_of_failure]
    · rfl
    · exact hnone
  · intro charged hcharged
    obtain ⟨fees, funding, slippage, hfees, hfunding, hslippage, rfl⟩ := addCosts_eq_ok hcharged
    refine behaves_assign ?_
    intro e hfails
    have hnone := eq_none_of_orOverflow hfails
    simp only [chargeWrites, hfees, hfunding, hslippage, List.cons_append, List.nil_append,
      keepsUntilFailure_some]
    rw [show quantityAfterClose episode closingQuantity = none from hnone]
    cases episode
    simp
    tauto

variable {closingFraction closingQuantity : D}

omit execution in
theorem reduce_eq {execution : ShadowExecution D} {price : D} :
    reduce episode execution price closingQuantity closingFraction =
      (do
        let realizedPnl ← orOverflow "realized pnl"
          (realizedAfterClose episode price closingQuantity)
        let exitNotional ← orOverflow "exit notional"
          (exitAfterClose episode price closingQuantity)
        let charged ← addCosts { episode with realizedPnl, exitNotional } execution closingFraction
        let signedQuantity ← orOverflow "episode close"
          (quantityAfterClose episode closingQuantity)
        pure { charged with signedQuantity }) := by
  unfold reduce
  simp only [orOverflow_bind_bind]
  rfl

omit execution in
theorem reduce_eq_ok {execution : ShadowExecution D} {price : D} {reduced : OpenEpisode D}
    (h : reduce episode execution price closingQuantity closingFraction = .ok reduced) :
    (∀ entry ∈ reduceWrites episode execution price closingQuantity closingFraction,
        entry.1 ≠ none) ∧
      (KeepsUntilFailure (reduceWrites episode execution price closingQuantity closingFraction) ↔
        reduced = episode) := by
  rw [reduce_eq] at h
  obtain ⟨realizedPnl, hrealized, h⟩ := of_bind h
  obtain ⟨exitNotional, hexit, h⟩ := of_bind h
  obtain ⟨charged, hcharged, h⟩ := of_bind h
  obtain ⟨signedQuantity, hquantity, h⟩ := of_bind h
  obtain ⟨fees, funding, slippage, hfees, hfunding, hslippage, rfl⟩ := addCosts_eq_ok hcharged
  obtain rfl := pure_eq_ok_iff.mp h
  simp only [reduceWrites, chargeWrites, eq_some_of_orOverflow hrealized,
    eq_some_of_orOverflow hexit, eq_some_of_orOverflow hquantity, hfees, hfunding, hslippage]
  constructor
  · simp
  · cases episode
    simp
    tauto

omit execution in
theorem exists_none_of_reduce {execution : ShadowExecution D} {price : D} {e : LedgerError}
    (h : reduce episode execution price closingQuantity closingFraction = .error e) :
    ∃ entry ∈ reduceWrites episode execution price closingQuantity closingFraction,
      entry.1 = none := by
  by_contra hall
  simp only [reduceWrites, chargeWrites, List.cons_append, List.nil_append, List.mem_cons,
    List.not_mem_nil, or_false, exists_eq_or_imp, exists_eq_left, not_or] at hall
  obtain ⟨hrealized, hexit, hfees, hfunding, hslippage, hquantity⟩ := hall
  obtain ⟨realizedPnl, hrealized⟩ := Option.ne_none_iff_exists'.mp hrealized
  obtain ⟨exitNotional, hexit⟩ := Option.ne_none_iff_exists'.mp hexit
  obtain ⟨fees, hfees⟩ := Option.ne_none_iff_exists'.mp hfees
  obtain ⟨funding, hfunding⟩ := Option.ne_none_iff_exists'.mp hfunding
  obtain ⟨slippage, hslippage⟩ := Option.ne_none_iff_exists'.mp hslippage
  obtain ⟨quantity, hquantity⟩ := Option.ne_none_iff_exists'.mp hquantity
  rw [reduce_eq, hrealized, hexit, hquantity] at h
  unfold addCosts at h
  simp only [addFraction_eq] at h
  change (do
    let charged ← (do
      let fees ← orOverflow "fees" (chargedCost episode.fees execution.fees closingFraction)
      let funding ← orOverflow "funding"
        (chargedCost episode.funding execution.funding closingFraction)
      let slippage ← orOverflow "slippage"
        (chargedCost episode.slippage execution.slippage closingFraction)
      pure { episode with realizedPnl, exitNotional, fees, funding, slippage })
    pure { charged with signedQuantity := quantity }) = .error e at h
  rw [hfees, hfunding, hslippage] at h
  cases h

end

section

variable {book first : EpisodeBook D} (execution : ShadowExecution D)

theorem openNewInPlace_behaves [Sha256] (hsequence : book.nextEpisodeSequence =
    first.nextEpisodeSequence) (price signedQuantity costFraction : D) :
    Behaves (openNewInPlace execution price signedQuantity costFraction) book first
      (openNew book execution price signedQuantity costFraction)
      (book = first ∧ checkedAddU64 book.nextEpisodeSequence 1 = none) := by
  unfold openNew openNewInPlace
  apply behaves_read_bind
  refine behaves_assign_bind ?_ ?_
  · intro e hfails
    simp [eq_none_of_orOverflow hfails]
  intro next hnext
  have hnext := eq_some_of_orOverflow hnext
  have hmoved : ¬ { book with nextEpisodeSequence := next } = first := by
    intro hsame
    have hvalue : next = book.nextEpisodeSequence :=
      hsequence ▸ congrArg EpisodeBook.nextEpisodeSequence hsame
    have hsucc := (checkedAddU64_eq_some_iff.mp hnext).1
    omega
  refine behaves_check_bind ?_ ?_
  · intro e _
    simp [hmoved, hnext]
  intro entryNotional _
  refine behaves_check_bind ?_ ?_
  · intro e _
    simp [hmoved, hnext]
  intro episode _
  apply behaves_write

variable {asset : String}

omit [Decimal D] in
theorem insertOpened_eq_iff {episode : OpenEpisode D} (h : book.opened[asset]? = some episode)
    (other : OpenEpisode D) :
    { book with opened := book.opened.insert asset other } = book ↔ other = episode := by
  have hentry : book.opened.insert asset other = book.opened ↔ episode = other := by
    rw [insert_eq_self_iff, h, Option.some.injEq]
  cases book
  simpa [eq_comm] using hentry

/-- What a fill in the direction of the position writes before it may fail. -/
def AddKeeps (book : EpisodeBook D) (execution : ShadowExecution D) (price signedDelta : D) :
    Prop :=
  match book.opened[execution.asset]? with
  | some episode => KeepsUntilFailure (growWrites episode execution price signedDelta)
  | none => checkedAddU64 book.nextEpisodeSequence 1 = none

theorem addSameDirectionInPlace_behaves [Sha256] (price signedDelta : D) :
    Behaves (addSameDirectionInPlace execution price signedDelta) book book
      (addSameDirection book execution price signedDelta)
      (AddKeeps book execution price signedDelta) := by
  unfold addSameDirection addSameDirectionInPlace AddKeeps
  apply behaves_read_bind
  cases hopened : book.opened[execution.asset]? with
  | none =>
    refine Behaves.congr (openNewInPlace_behaves execution rfl price signedDelta Decimal.one) ?_
    intro e _
    simp
  | some episode =>
    have hgrown : Behaves (OpenEpisode.growInPlace execution price signedDelta) episode episode
        _ _ := growInPlace_behaves execution price signedDelta
    exact hgrown.ofPart (insertOpened_eq_iff hopened)

theorem finishEpisodeInPlace_behaves {opened : OpenEpisode D}
    (h : first.opened[asset]? = some opened) (closedAt : ℕ) (hheld : book.opened[asset]?.isSome) :
    Behaves (finishEpisodeInPlace asset closedAt) book first (finishEpisode book asset closedAt)
      False := by
  obtain ⟨episode, hepisode⟩ := Option.isSome_iff_exists.mp hheld
  unfold finishEpisode finishEpisodeInPlace
  apply behaves_read_bind
  rw [hepisode]
  apply behaves_write_bind
  refine behaves_check_bind ?_ ?_
  · intro e _
    rw [iff_false]
    intro hsame
    have hgone := congrArg (fun book => book.opened[asset]?) hsame
    rw [h, getElem?_erase_eq, if_pos rfl] at hgone
    cases hgone
  · intro closed _
    apply behaves_write

theorem finishEpisode_changes {closedAt : ℕ} {next : EpisodeBook D}
    (h : finishEpisode book asset closedAt = .ok next) :
    next.nextEpisodeSequence = book.nextEpisodeSequence ∧ next.closed ≠ book.closed := by
  unfold finishEpisode at h
  cases hopened : book.opened[asset]? with
  | none =>
    rw [hopened] at h
    cases h
  | some episode =>
    rw [hopened] at h
    obtain ⟨closed, -, h⟩ := of_bind h
    obtain rfl := pure_eq_ok_iff.mp h
    refine ⟨rfl, ?_⟩
    simp

def flipRest [Sha256] (book : EpisodeBook D) (execution : ShadowExecution D)
    (price signedDelta closingQuantity closingFraction : D) :
    Except LedgerError (EpisodeBook D) := do
  let residual ← orOverflow "flip residual"
    (Decimal.checkedSub (Decimal.abs signedDelta) closingQuantity)
  if Decimal.isZero residual then pure book
  else
    let residualFraction ← orOverflow "residual fraction"
      (Decimal.checkedSub Decimal.one closingFraction)
    openNew book execution price
      (if Decimal.isSignPositive signedDelta then residual else Decimal.neg residual)
      residualFraction

/-- The rest of a fill fails before it takes a sequence number. -/
def FlipKeeps (book : EpisodeBook D) (signedDelta closingQuantity closingFraction : D) : Prop :=
  Decimal.checkedSub (Decimal.abs signedDelta) closingQuantity = none ∨
    Decimal.checkedSub Decimal.one closingFraction = none ∨
    checkedAddU64 book.nextEpisodeSequence 1 = none

theorem flipRestInPlace_behaves [Sha256] (hsequence : book.nextEpisodeSequence =
    first.nextEpisodeSequence) (price signedDelta closingQuantity closingFraction : D) :
    Behaves (flipRestInPlace execution price signedDelta closingQuantity closingFraction) book
      first (flipRest book execution price signedDelta closingQuantity closingFraction)
      (book = first ∧ FlipKeeps first signedDelta closingQuantity closingFraction) := by
  unfold flipRest flipRestInPlace FlipKeeps
  refine behaves_check_bind ?_ ?_
  · intro e hfails
    simp [eq_none_of_orOverflow hfails]
  intro residual hresidual
  rw [eq_some_of_orOverflow hresidual]
  split
  · apply behaves_pure
  refine behaves_check_bind ?_ ?_
  · intro e hfails
    simp [eq_none_of_orOverflow hfails]
  intro fraction hfraction
  rw [eq_some_of_orOverflow hfraction]
  refine Behaves.congr (openNewInPlace_behaves execution hsequence price _ fraction) ?_
  intro e _
  simp [hsequence]

/-- A fill against the direction of an episode writes no other value before it fails: the values
of the episode are kept, and where all are computed the episode is left open and the rest of the
fill fails before it takes a sequence number. -/
def CloseKeeps (book : EpisodeBook D) (execution : ShadowExecution D) (price signedDelta : D) :
    Prop :=
  ∀ episode, book.opened[execution.asset]? = some episode →
    ∀ fraction, Decimal.checkedDiv
        (Decimal.min (Decimal.abs signedDelta) (Decimal.abs episode.signedQuantity))
        (Decimal.abs signedDelta) = some fraction →
      KeepsUntilFailure (reduceWrites episode execution price
          (Decimal.min (Decimal.abs signedDelta) (Decimal.abs episode.signedQuantity)) fraction) ∧
        ((∀ entry ∈ reduceWrites episode execution price
            (Decimal.min (Decimal.abs signedDelta) (Decimal.abs episode.signedQuantity)) fraction,
            entry.1 ≠ none) →
          Decimal.isZero episode.signedQuantity = false ∧
            FlipKeeps book signedDelta
              (Decimal.min (Decimal.abs signedDelta) (Decimal.abs episode.signedQuantity)) fraction)

theorem closeOrFlipInPlace_behaves [Sha256] (price signedDelta : D) (closedAt : ℕ) :
    Behaves (closeOrFlipInPlace execution price signedDelta closedAt) book book
      (closeOrFlip book execution price signedDelta closedAt)
      (CloseKeeps book execution price signedDelta) := by
  unfold closeOrFlip closeOrFlipInPlace CloseKeeps
  apply behaves_read_bind
  cases hopened : book.opened[execution.asset]? with
  | none =>
    apply behaves_check_error
    simp
  | some episode =>
    simp only [Option.some.injEq, forall_eq']
    generalize Decimal.min (Decimal.abs signedDelta) (Decimal.abs episode.signedQuantity) =
      closingQuantity
    refine behaves_check_bind ?_ ?_
    · intro e hfails
      simp [eq_none_of_orOverflow hfails]
    intro fraction hfraction
    rw [eq_some_of_orOverflow hfraction]
    simp only [Option.some.injEq, forall_eq']
    refine Behaves.ofPart_bind (Behaves.congr (reduceInPlace_behaves execution price
      closingQuantity fraction) ?_) (insertOpened_eq_iff hopened) ?_
    · intro e hfails
      obtain ⟨entry, hmem, hnone⟩ := exists_none_of_reduce hfails
      constructor
      · intro hkeeps
        exact ⟨hkeeps, fun hall => absurd hnone (hall entry hmem)⟩
      · exact And.left
    · intro reduced hreduced
      obtain ⟨hcomplete, hkeeps⟩ := reduce_eq_ok hreduced
      apply behaves_read_bind
      have hheld : (book.opened.insert execution.asset reduced)[execution.asset]? = some reduced := by
        rw [getElem?_insert_eq, if_pos rfl]
      rw [hheld, Option.any_some]
      cases hzero : Decimal.isZero reduced.signedQuantity with
      | true =>
        have hchanged : ¬ (KeepsUntilFailure (reduceWrites episode execution price closingQuantity
            fraction) ∧ ((∀ entry ∈ reduceWrites episode execution price closingQuantity fraction,
              entry.1 ≠ none) → Decimal.isZero episode.signedQuantity = false ∧
                FlipKeeps book signedDelta closingQuantity fraction)) := by
          rintro ⟨hsame, hrest⟩
          rw [hkeeps.mp hsame, (hrest hcomplete).1] at hzero
          cases hzero
        rw [if_pos rfl, if_pos rfl]
        refine Behaves.bind (Behaves.congr (finishEpisodeInPlace_behaves hopened closedAt ?_) ?_) ?_
        · dsimp only
          rw [hheld]
          rfl
        · intro e _
          exact (iff_false_intro hchanged).symm
        · intro settled hsettled
          obtain ⟨hsequence, hclosed⟩ := finishEpisode_changes hsettled
          have hnext : settled.nextEpisodeSequence = book.nextEpisodeSequence := hsequence
          have hrest := flipRestInPlace_behaves execution hnext price signedDelta closingQuantity
            fraction
          refine hrest.congr ?_
          intro e _
          constructor
          · rintro ⟨hsame, -⟩
            exact absurd (congrArg EpisodeBook.closed hsame) hclosed
          · intro hclean
            exact absurd hclean hchanged
      | false =>
        rw [if_neg Bool.false_ne_true, if_neg Bool.false_ne_true]
        have hnext : ({ book with
            opened := book.opened.insert execution.asset reduced } : EpisodeBook D).nextEpisodeSequence =
              book.nextEpisodeSequence := rfl
        have hrest := flipRestInPlace_behaves execution hnext price signedDelta closingQuantity
          fraction
        refine hrest.congr ?_
        intro e _
        rw [insertOpened_eq_iff hopened, ← hkeeps]
        constructor
        · rintro ⟨hsame, hflip⟩
          rw [hkeeps.mp hsame] at hzero
          exact ⟨hsame, fun _ => ⟨hzero, hflip⟩⟩
        · rintro ⟨hsame, hflip⟩
          exact ⟨hsame, (hflip hcomplete).2⟩

/-- A fill writes no other value into the episodes of a book before it fails. -/
def TradeKeeps (book : EpisodeBook D) (execution : ShadowExecution D) (price : D) : Prop :=
  if sameDirection (book.position execution.asset) (signedDelta execution) then
    AddKeeps book execution price (signedDelta execution)
  else CloseKeeps book execution price (signedDelta execution)

/-- A fill writes no other value into a book before it fails: it fails at a check of the execution
itself, or later with all values kept. -/
def FillKeeps (book : EpisodeBook D) (execution : ShadowExecution D) : Prop :=
  ∀ price after, Decimal.eqv (book.position execution.asset) execution.positionBefore = true →
    Decimal.isZero execution.modeledFilledQuantity = false →
      execution.modeledAverageFillPrice = some price →
        Decimal.checkedAdd (book.position execution.asset) (signedDelta execution) = some after →
          Decimal.eqv after execution.positionAfter = true → TradeKeeps book execution price

theorem tradeInPlace_behaves [Sha256] (price : D) (closedAt : ℕ)
    {rest : Unit → InPlace LedgerError (EpisodeBook D) Unit}
    {g : EpisodeBook D → Except LedgerError (EpisodeBook D)}
    (hrest : ∀ next, Behaves (rest ()) next book (g next) (TradeKeeps book execution price)) :
    Behaves (if sameDirection (book.position execution.asset) (signedDelta execution) then
        addSameDirectionInPlace execution price (signedDelta execution) >>= rest
      else closeOrFlipInPlace execution price (signedDelta execution) closedAt >>= rest) book book
      (trade book execution price (signedDelta execution) closedAt >>= g)
      (TradeKeeps book execution price) := by
  unfold trade
  unfold TradeKeeps at hrest ⊢
  split
  · rename_i hsame
    rw [if_pos hsame] at hrest
    refine Behaves.bind (addSameDirectionInPlace_behaves execution price _) ?_
    intro next _
    exact hrest next
  · rename_i hopposite
    rw [if_neg hopposite] at hrest
    refine Behaves.bind (closeOrFlipInPlace_behaves execution price _ closedAt) ?_
    intro next _
    exact hrest next

theorem applyInPlace_behaves [Sha256] (closedAt : ℕ) :
    Behaves (applyInPlace execution closedAt) book book (book.apply execution closedAt)
      (FillKeeps book execution) := by
  unfold apply applyInPlace FillKeeps
  apply behaves_read_bind
  dsimp only
  cases hbefore : Decimal.eqv (book.position execution.asset) execution.positionBefore with
  | false =>
    apply behaves_check_error
    simp
  | true =>
    rw [Bool.not_true, if_neg Bool.false_ne_true, if_neg Bool.false_ne_true]
    cases hfilled : Decimal.isZero execution.modeledFilledQuantity with
    | true =>
      rw [if_pos rfl, if_pos rfl]
      split
      · apply behaves_check_error
        simp
      · apply behaves_pure
    | false =>
      rw [if_neg Bool.false_ne_true, if_neg Bool.false_ne_true]
      cases hprice : execution.modeledAverageFillPrice with
      | none =>
        apply behaves_check_error
        simp
      | some price =>
        refine behaves_check_bind ?_ ?_
        · intro e hfails
          simp [eq_none_of_orOverflow hfails]
        intro after hafter
        have hafter := eq_some_of_orOverflow hafter
        cases hmatches : Decimal.eqv after execution.positionAfter with
        | false =>
          apply behaves_check_error
          simp [hafter, hmatches]
        | true =>
          rw [Bool.not_true, if_neg Bool.false_ne_true, if_neg Bool.false_ne_true]
          refine Behaves.congr (tradeInPlace_behaves execution price closedAt ?_) ?_
          · intro traded
            apply behaves_write
          · intro e _
            simp [hafter, hmatches]

end

variable {ledger : DualLedger D}

theorem applyPortfolioExecutionInPlace_behaves [Sha256] (execution : ShadowExecution D)
    (closedAt : ℕ) :
    Behaves (DualLedger.applyPortfolioExecutionInPlace execution closedAt) ledger ledger
      (ledger.applyPortfolioExecution execution closedAt)
      (FillKeeps ledger.portfolio execution) := by
  unfold DualLedger.applyPortfolioExecution DualLedger.applyPortfolioExecutionInPlace
  apply behaves_read_bind
  refine (applyInPlace_behaves execution closedAt).ofPart ?_
  intro portfolio
  cases ledger
  simp

/-- A failing execution on a source keeps a book that is there, and never the absence of one. -/
def SourceFillKeeps (ledger : DualLedger D) (candidateId : String) (execution : ShadowExecution D) :
    Prop :=
  ∃ book, ledger.sources[candidateId]? = some book ∧ FillKeeps book execution

omit [Decimal D] in
theorem insertSource_eq_iff {candidateId : String} {other : EpisodeBook D} :
    { ledger with sources := ledger.sources.insert candidateId other } = ledger ↔
      ledger.sources[candidateId]? = some other := by
  rw [← insert_eq_self_iff]
  cases ledger
  simp

theorem applySourceExecutionInPlace_behaves [Sha256] (candidateId : String)
    (execution : ShadowExecution D) (closedAt : ℕ) :
    Behaves (DualLedger.applySourceExecutionInPlace candidateId execution closedAt) ledger ledger
      (ledger.applySourceExecution candidateId execution closedAt)
      (SourceFillKeeps ledger candidateId execution) := by
  unfold DualLedger.applySourceExecution DualLedger.applySourceExecutionInPlace SourceFillKeeps
  apply behaves_read_bind
  cases hbook : ledger.sources[candidateId]? with
  | some book =>
    refine Behaves.congr (Behaves.ofPart (applyInPlace_behaves execution closedAt) ?_) ?_
    · intro next
      rw [insertSource_eq_iff, hbook, Option.some.injEq]
      exact eq_comm
    · intro e _
      simp
  | none =>
    refine Behaves.congr (Behaves.ofPart_moved (applyInPlace_behaves execution closedAt) ?_) ?_
    · intro next hsame
      rw [insertSource_eq_iff, hbook] at hsame
      cases hsame
    · intro e _
      simp

omit [Decimal D] in
theorem withPortfolio_eq_iff {portfolio : EpisodeBook D} :
    { ledger with portfolio } = ledger ↔ portfolio = ledger.portfolio := by
  cases ledger
  simp

theorem applyPortfolioFundingInPlace_behaves (asset : String) (fundingCost : D) :
    Behaves (DualLedger.applyPortfolioFundingInPlace asset fundingCost) ledger ledger
      (ledger.applyPortfolioFunding asset fundingCost) True := by
  unfold DualLedger.applyPortfolioFunding DualLedger.applyPortfolioFundingInPlace
  apply behaves_read_bind
  cases hopened : ledger.portfolio.opened[asset]? with
  | none =>
    apply behaves_check_error
    simp
  | some episode =>
    have hepisode : Behaves (assign (fun episode => orOverflow "funding"
        (Decimal.checkedAdd episode.funding fundingCost))
        fun episode funding => { episode with funding }) episode episode _ True :=
      behaves_assign (by simp)
    have hpart : Behaves (onPart episode (fun ledger episode => { ledger with
        portfolio := { ledger.portfolio with
          opened := ledger.portfolio.opened.insert asset episode } }) _) ledger ledger _ True :=
      hepisode.ofPart fun other => withPortfolio_eq_iff.trans (insertOpened_eq_iff hopened other)
    simp only [bind_assoc, pure_bind] at hpart
    exact hpart

omit [Decimal D] in
theorem replaceLast_eq_iff {α : Type} {items : List α} {last other : α}
    (h : items.getLast? = some last) : items.dropLast ++ [other] = items ↔ other = last := by
  obtain ⟨front, rfl⟩ := List.getLast?_eq_some_iff.mp h
  simp

omit [Decimal D] in
theorem replaceClosed_eq_iff {book : EpisodeBook D} {last : PortfolioEpisode D}
    (h : book.closed.getLast? = some last) (other : PortfolioEpisode D) :
    { book with closed := book.closed.dropLast ++ [other] } = book ↔ other = last := by
  rw [← replaceLast_eq_iff h]
  cases book
  simp

/-- The last portfolio episode has the result that the exchange reports. -/
def ReconcileKeeps (ledger : DualLedger D) (asset : String) (exchangeRealizedPnl : D) : Prop :=
  ∀ episode, ledger.portfolio.closed.getLast? = some episode → episode.asset = asset →
    episode.realizedPnl = exchangeRealizedPnl

theorem reconcileInPlace_behaves (asset : String) (exchangeRealizedPnl : D) :
    Behaves (DualLedger.reconcileLastPortfolioGrossPnlInPlace asset exchangeRealizedPnl) ledger
      ledger (ledger.reconcileLastPortfolioGrossPnl asset exchangeRealizedPnl)
      (ReconcileKeeps ledger asset exchangeRealizedPnl) := by
  unfold DualLedger.reconcileLastPortfolioGrossPnl
    DualLedger.reconcileLastPortfolioGrossPnlInPlace ReconcileKeeps
  apply behaves_read_bind
  cases hlast : ledger.portfolio.closed.getLast? with
  | none =>
    apply behaves_check_error
    simp
  | some episode =>
    dsimp only
    by_cases hasset : episode.asset = asset
    · rw [if_neg (by simpa using hasset), if_neg (by simpa using hasset)]
      have hepisode : Behaves (do
          write fun (episode : PortfolioEpisode D) =>
            { episode with realizedPnl := exchangeRealizedPnl }
          assign (fun episode => orOverflow "exchange reconciled episode net pnl"
              (EpisodeBook.netOf exchangeRealizedPnl episode.fees episode.funding
                episode.slippage))
            fun episode netPnl => { episode with netPnl }) episode episode
          (do
            let netPnl ← orOverflow "exchange reconciled episode net pnl"
              (EpisodeBook.netOf exchangeRealizedPnl episode.fees episode.funding episode.slippage)
            pure { episode with realizedPnl := exchangeRealizedPnl, netPnl })
          (episode.realizedPnl = exchangeRealizedPnl) := by
        apply behaves_write_bind
        refine behaves_assign ?_
        intro e _
        cases episode
        simp [eq_comm]
      have hpart : Behaves (onPart episode (fun ledger episode => { ledger with
          portfolio := { ledger.portfolio with
            closed := ledger.portfolio.closed.dropLast ++ [episode] } }) _) ledger ledger _ _ :=
        hepisode.ofPart fun other => withPortfolio_eq_iff.trans (replaceClosed_eq_iff hlast other)
      simp only [bind_assoc, pure_bind] at hpart
      refine hpart.congr ?_
      intro e _
      simp [hasset]
    · rw [if_pos (by simpa using hasset), if_pos (by simpa using hasset)]
      apply behaves_check_error
      simp [hasset]

/-- The last episode of a source book, when its id is the given one, satisfies a condition. -/
def LastSourceEpisode (ledger : DualLedger D) (candidateId : String) (episodeId : EpisodeId)
    (keeps : PortfolioEpisode D → Prop) : Prop :=
  ∀ book, ledger.sources[candidateId]? = some book →
    ∀ episode, book.closed.getLast? = some episode → episode.episodeId = episodeId → keeps episode

omit [Decimal D] in
theorem onLastSourceEpisode_behaves {m : InPlace LedgerError (PortfolioEpisode D) Unit}
    {edit : PortfolioEpisode D → Except LedgerError (PortfolioEpisode D)}
    {keeps : PortfolioEpisode D → Prop}
    (h : ∀ episode, Behaves m episode episode (edit episode) (keeps episode))
    (candidateId : String) (episodeId : EpisodeId) :
    Behaves (DualLedger.onLastSourceEpisode candidateId episodeId m) ledger ledger
      (ledger.editLastSourceEpisode candidateId episodeId edit)
      (LastSourceEpisode ledger candidateId episodeId keeps) := by
  unfold DualLedger.onLastSourceEpisode DualLedger.editLastSourceEpisode LastSourceEpisode
  apply behaves_read_bind
  cases hbook : ledger.sources[candidateId]? with
  | none =>
    apply behaves_check_error
    simp
  | some book =>
    dsimp only
    cases hlast : book.closed.getLast? with
    | none =>
      apply behaves_check_error
      simp [hlast]
    | some episode =>
      dsimp only
      by_cases hid : episode.episodeId = episodeId
      · rw [if_neg (by simpa using hid), if_neg (by simpa using hid)]
        refine Behaves.congr ((h episode).ofPart ?_) ?_
        · intro other
          rw [insertSource_eq_iff, hbook, Option.some.injEq, ← replaceClosed_eq_iff hlast other]
          exact eq_comm
        · intro e _
          simp [hlast, hid]
      · rw [if_pos (by simpa using hid), if_pos (by simpa using hid)]
        apply behaves_check_error
        simp [hlast, hid]

/-- What a residual writes into an episode before it may fail. -/
def ResidualKeeps (residual : D) (episode : PortfolioEpisode D) : Prop :=
  KeepsUntilFailure
    [(Decimal.checkedAdd episode.attributionResidual residual, episode.attributionResidual)]

theorem residualInPlace_behaves (candidateId : String) (episodeId : EpisodeId) (residual : D) :
    Behaves (DualLedger.assignSourceAttributionResidualInPlace candidateId episodeId residual)
      ledger ledger (ledger.assignSourceAttributionResidual candidateId episodeId residual)
      (LastSourceEpisode ledger candidateId episodeId (ResidualKeeps residual)) := by
  unfold DualLedger.assignSourceAttributionResidual
    DualLedger.assignSourceAttributionResidualInPlace
  apply onLastSourceEpisode_behaves
  intro episode
  unfold DualLedger.withAttributionResidual ResidualKeeps
  refine behaves_assign_bind ?_ ?_
  · intro e hfails
    simp [eq_none_of_orOverflow hfails]
  intro attributionResidual hresidual
  rw [eq_some_of_orOverflow hresidual]
  refine behaves_assign ?_
  intro e _
  cases episode
  simp

/-- What the economic residuals write into an episode before the last check may fail. -/
def EconomicKeeps (residuals : DualLedger.EconomicResiduals D) (episode : PortfolioEpisode D) :
    Prop :=
  KeepsUntilFailure
    [(Decimal.checkedAdd episode.realizedPnl residuals.gross, episode.realizedPnl),
      (Decimal.checkedAdd episode.fees residuals.fees, episode.fees),
      (Decimal.checkedAdd episode.funding residuals.funding, episode.funding),
      (Decimal.checkedAdd episode.slippage residuals.slippage, episode.slippage)]

theorem economicInPlace_behaves (candidateId : String) (episodeId : EpisodeId)
    (residuals : DualLedger.EconomicResiduals D) :
    Behaves (DualLedger.assignSourceEpisodeEconomicResidualsInPlace candidateId episodeId residuals)
      ledger ledger (ledger.assignSourceEpisodeEconomicResiduals candidateId episodeId residuals)
      (LastSourceEpisode ledger candidateId episodeId (EconomicKeeps residuals)) := by
  unfold DualLedger.assignSourceEpisodeEconomicResiduals
    DualLedger.assignSourceEpisodeEconomicResidualsInPlace
  apply onLastSourceEpisode_behaves
  intro episode
  unfold DualLedger.withEconomicResiduals EconomicKeeps
  refine behaves_assign_bind ?_ ?_
  · intro e hfails
    simp [eq_none_of_orOverflow hfails]
  intro realizedPnl hgross
  rw [eq_some_of_orOverflow hgross]
  refine behaves_assign_bind ?_ ?_
  · intro e hfails
    rw [show Decimal.checkedAdd episode.fees residuals.fees = none from
      eq_none_of_orOverflow hfails]
    cases episode
    simp
  intro fees hfees
  rw [show Decimal.checkedAdd episode.fees residuals.fees = some fees from
    eq_some_of_orOverflow hfees]
  refine behaves_assign_bind ?_ ?_
  · intro e hfails
    rw [show Decimal.checkedAdd episode.funding residuals.funding = none from
      eq_none_of_orOverflow hfails]
    cases episode
    simp
  intro funding hfunding
  rw [show Decimal.checkedAdd episode.funding residuals.funding = some funding from
    eq_some_of_orOverflow hfunding]
  refine behaves_assign_bind ?_ ?_
  · intro e hfails
    rw [show Decimal.checkedAdd episode.slippage residuals.slippage = none from
      eq_none_of_orOverflow hfails]
    cases episode
    simp
  intro slippage hslippage
  rw [show Decimal.checkedAdd episode.slippage residuals.slippage = some slippage from
    eq_some_of_orOverflow hslippage]
  refine behaves_assign ?_
  intro e _
  cases episode
  simp

def FailsClean (ledger : DualLedger D) : LedgerCall D → Prop
  | .portfolioExecution execution _ => FillKeeps ledger.portfolio execution
  | .sourceExecution candidateId execution _ => SourceFillKeeps ledger candidateId execution
  | .portfolioFunding _ _ => True
  | .sourceAttributionResidual candidateId episodeId residual =>
    LastSourceEpisode ledger candidateId episodeId (ResidualKeeps residual)
  | .sourceEconomicResiduals candidateId episodeId residuals =>
    LastSourceEpisode ledger candidateId episodeId (EconomicKeeps residuals)
  | .reconcilePortfolioGross asset exchangeRealizedPnl =>
    ReconcileKeeps ledger asset exchangeRealizedPnl

theorem callInPlace_behaves [Sha256] (call : LedgerCall D) :
    Behaves (DualLedger.callInPlace call) ledger ledger (ledger.call call)
      (FailsClean ledger call) := by
  cases call with
  | portfolioExecution execution closedAt => apply applyPortfolioExecutionInPlace_behaves
  | sourceExecution candidateId execution closedAt => apply applySourceExecutionInPlace_behaves
  | portfolioFunding asset fundingCost => apply applyPortfolioFundingInPlace_behaves
  | sourceAttributionResidual candidateId episodeId residual => apply residualInPlace_behaves
  | sourceEconomicResiduals candidateId episodeId residuals => apply economicInPlace_behaves
  | reconcilePortfolioGross asset exchangeRealizedPnl => apply reconcileInPlace_behaves

/-- A call that fails leaves the ledger unchanged exactly when no value that it writes before the
failing check differs from the one that is there. -/
theorem failed_call_unchanged_iff [Sha256] {call : LedgerCall D} {e : LedgerError}
    (h : (DualLedger.callInPlace call ledger).1 = .error e) :
    (DualLedger.callInPlace call ledger).2 = ledger ↔ FailsClean ledger call :=
  (callInPlace_behaves call).unchanged_iff h

def heldExecution : ShadowExecution ℚ where
  asset := "BTC"
  side := .buy
  decisionId := Bytes.replicate 32 0
  plannedCloid := Bytes.replicate 16 0
  decisionTimestampMono := 1
  modeledFilledQuantity := 1
  modeledAverageFillPrice := some 100
  fees := 0
  funding := 0
  slippage := 0
  positionBefore := 5
  positionAfter := 6

theorem unseen_source_gets_book : ¬ ∀ [Sha256] (ledger : DualLedger ℚ) (call : LedgerCall ℚ)
    (e : LedgerError), (DualLedger.callInPlace call ledger).1 = .error e →
      (DualLedger.callInPlace call ledger).2 = ledger := by
  intro h
  let sha : Sha256 := ⟨prefixDigest⟩
  have hsame := h DualLedger.empty (.sourceExecution "alpha" heldExecution 2) .positionDivergence
    (by decide +kernel)
  have hbook := congrArg (fun ledger => ledger.sources.contains "alpha") hsame
  revert hbook
  decide +kernel

theorem failed_call_unchanged_iff_held : ∃ _ : Sha256,
    ((DualLedger.callInPlace (.portfolioExecution heldExecution 2)
        (DualLedger.empty (D := ℚ))).2 = DualLedger.empty ↔
      FailsClean DualLedger.empty (.portfolioExecution heldExecution 2)) :=
  let sha : Sha256 := ⟨prefixDigest⟩
  ⟨sha, failed_call_unchanged_iff (e := .positionDivergence) (by decide +kernel)⟩

end CopyTrade.Analysis
