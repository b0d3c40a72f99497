import CopyTrade.Analysis.Signer.BookedRecords
import CopyTrade.Analysis.Signer.Pagination
import CopyTrade.Analysis.Signer.PlainActions
import CopyTrade.Foundation.GrowingLog

/-!
# No record is skipped between reconciliations

The exchange records fills and funding while the signer reads them, and answers every page from the
records that are visible at its instant.  A call of `reconcile_startup` reads the range from the
ledger's cursor to its own `now_ms` and leaves the cursor behind `now_ms`, wherever the exchange
stands by then.  Every record is in the ledger exactly once after the calls whose pages are whole.
A record that appears after the reading with a stamp up to `now_ms`, because the local clock was
ahead, is behind the cursor for ever.
-/

namespace CopyTrade.Analysis

open Foundation Model
open Std (ExtTreeMap)

/-- An exchange whose records of an account grow, and that answers with at most `size` of them. -/
structure GrowingExchange (W : Type) (time : W → UInt64) where
  log : GrowingLog W (eventMs time)
  size : ℕ
  positive : 0 < size
  /-- The hash of the response to a request at an instant. -/
  sourceHash : ℕ → EventCursor → Hash

namespace GrowingExchange

variable {W : Type} {time : W → UInt64}

def atInstant (exchange : GrowingExchange W time) (n : ℕ) : PagedExchange W time where
  account := exchange.log.records n
  inOrder := exchange.log.inOrder n
  size := exchange.size
  positive := exchange.positive
  sourceHash := exchange.sourceHash n

/-- What is read of a range from an instant on, and the instant after it. -/
def Reads (exchange : GrowingExchange W time) (n start last : ℕ) (wire : List W) (k : ℕ) : Prop :=
  exchange.log.Reads exchange.size last n start wire k

/-- No page of the reading ends between two records of one millisecond, the later of which may
still have to appear, and no record of the range appears after the reading. -/
def Whole (exchange : GrowingExchange W time) (n start last : ℕ) : Prop :=
  exchange.log.Whole exchange.size last n start

end GrowingExchange

variable {D : Type} [Decimal D] {W R : Type} {time : W → UInt64}
  {record : Hash → W → Except ReconciliationError R} {exchange : GrowingExchange W time}
  {thread : ℕ} {environment : ℕ → (op : SignerOp D) → op.Choice}
  {read : EventCursor → SignerAction D (EventBatch R)}

def ReadsFrom (exchange : GrowingExchange W time) (thread : ℕ)
    (environment : ℕ → (op : SignerOp D) → op.Choice)
    (record : Hash → W → Except ReconciliationError R)
    (read : EventCursor → SignerAction D (EventBatch R)) : Prop :=
  ∀ cursor n k (w v : SignerWorld D) page, Returns thread environment (read cursor) n w page k v →
    k = n + 1 ∧ v = w ∧ readPage time record cursor ((exchange.atInstant n).answer cursor)
      (exchange.sourceHash n cursor) = .ok page

theorem page_of_returns (hread : ReadsFrom exchange thread environment record read)
    {start last n k : ℕ} {w v : SignerWorld D} {page : EventBatch R}
    (h : Returns thread environment (read ⟨start, some last⟩) n w page k v) :
    k = n + 1 ∧ v = w ∧ ParsedFrom record page.records (exchange.log.page exchange.size n start last) ∧
      page.nextCursor.endTimeMs = some last ∧
      page.nextCursor.startTimeMs = if exchange.log.page exchange.size n start last = [] then start
        else max start (saturatingAdd (latest (eventMs time)
          (exchange.log.page exchange.size n start last)) 1) := by
  obtain ⟨hk, hv, hpage⟩ := hread _ _ _ _ _ _ h
  exact ⟨hk, hv, page_of_readPage hpage⟩

theorem isEmpty_of_parsedFrom {records : List R} {wire : List W}
    (h : ParsedFrom record records wire) : records.isEmpty = wire.isEmpty := by
  cases h <;> rfl

theorem not_returns_readPages (hread : ReadsFrom exchange thread environment record read)
    {kind : String} {last pages n m : ℕ} {all : List R} {w w' : SignerWorld D} {batch : EventBatch R}
    (hleft : exchange.log.page exchange.size n maxU64 last ≠ []) :
    ¬ Returns thread environment (readPages read kind last pages ⟨maxU64, some last⟩ all) n w batch
      m w' := by
  intro h
  cases pages with
  | zero => exact not_returns_throw h
  | succ pages =>
    rw [readPages] at h
    obtain ⟨page, k, v, hpage, hrest⟩ := returns_bind_iff.mp h
    obtain ⟨-, -, hparsed, -, hnext⟩ := page_of_returns hread hpage
    have hsame : page.nextCursor.startTimeMs ≤ maxU64 := by
      rw [hnext, if_neg hleft]
      exact max_le le_rfl (min_le_right _ _)
    rw [isEmpty_of_parsedFrom hparsed, List.isEmpty_eq_false_iff.mpr hleft,
      if_neg Bool.false_ne_true, if_pos hsame] at hrest
    exact not_returns_throw hrest

theorem reads_of_readPages (hread : ReadsFrom exchange thread environment record read)
    {kind : String} {start last pages n m : ℕ} {all : List R} {w w' : SignerWorld D}
    {batch : EventBatch R} (hrange : start ≤ last)
    (h : Returns thread environment (readPages read kind last pages ⟨start, some last⟩ all) n w batch
      m w') :
    w' = w ∧ batch.nextCursor.startTimeMs ≤ last + 1 ∧
      ∃ rest wire, batch.records = all ++ rest ∧ ParsedFrom record rest wire ∧
        exchange.Reads n start last wire m := by
  induction pages generalizing start n w all with
  | zero => exact (not_returns_throw h).elim
  | succ pages ih =>
    rw [readPages] at h
    obtain ⟨page, k, v, hpage, hrest⟩ := returns_bind_iff.mp h
    obtain ⟨rfl, rfl, hparsed, hend, hnext⟩ := page_of_returns hread hpage
    rw [isEmpty_of_parsedFrom hparsed] at hrest
    by_cases hempty : exchange.log.page exchange.size n start last = []
    · rw [hempty, List.isEmpty_nil, if_pos rfl] at hrest
      obtain ⟨rfl, rfl, rfl⟩ := returns_pure_iff.mp hrest
      exact ⟨rfl, min_le_left _ _, [], [], (List.append_nil _).symm, .nil, .empty hrange hempty⟩
    · rw [List.isEmpty_eq_false_iff.mpr hempty, if_neg Bool.false_ne_true] at hrest
      rw [if_neg hempty] at hnext
      obtain ⟨hfrom, hto⟩ := GrowingLog.latest_page hempty
      split at hrest
      · exact (not_returns_throw hrest).elim
      rename_i hmoved
      dsimp only at hmoved
      unfold saturatingAdd at hnext
      split at hrest
      · -- the cursor is behind the end of the range
        rename_i hover
        obtain ⟨rfl, rfl, rfl⟩ := returns_pure_iff.mp hrest
        refine ⟨rfl, ?_, page.records, _, rfl, hparsed, .final hempty ?_⟩
        · change page.nextCursor.startTimeMs ≤ last + 1
          omega
        · omega
      · rename_i hinside
        have hcursor : page.nextCursor = ⟨page.nextCursor.startTimeMs, some last⟩ := by
          rw [← hend]
        rw [hcursor] at hrest
        rcases Nat.lt_or_ge (latest (eventMs time) (exchange.log.page exchange.size n start last))
          maxU64 with hlt | hge
        · have hstart : page.nextCursor.startTimeMs =
              latest (eventMs time) (exchange.log.page exchange.size n start last) + 1 := by
            omega
          rw [hstart] at hrest hinside
          obtain ⟨hworld, hbound, rest, wire, hrecords, hwire, hreads⟩ := ih (by omega) hrest
          exact ⟨hworld, hbound, page.records ++ rest, _, by rw [hrecords, List.append_assoc],
            List.rel_append hparsed hwire, .more hempty (by omega) hreads⟩
        · -- the cursor cannot move behind a record of the last millisecond there is
          have hstart : page.nextCursor.startTimeMs = maxU64 := by
            omega
          rw [hstart] at hrest
          refine (not_returns_readPages hread (fun hnil => ?_) hrest).elim
          obtain ⟨event, hevent, hlatest⟩ := @exists_time_eq_latest _ (eventMs time) _ hempty
          have hvisible := GrowingLog.mem_within_iff.mp (List.mem_of_mem_take hevent)
          have hleft : event ∈ exchange.log.within (n + 1) maxU64 last :=
            GrowingLog.mem_within_iff.mpr
              ⟨(GrowingLog.records_initial (Nat.le_succ n)).subset hvisible.1, by omega,
                hvisible.2.2⟩
          rcases List.take_eq_nil_iff.mp hnil with hzero | hnone
          · exact exchange.positive.ne' hzero
          · rw [hnone] at hleft
            cases hleft

theorem reads_of_readAll (hread : ReadsFrom exchange thread environment record read)
    {kind : String} {start last n m : ℕ} {w w' : SignerWorld D} {batch : EventBatch R}
    (h : Returns thread environment (readAll read kind start last) n w batch m w') :
    w' = w ∧ batch.nextCursor.startTimeMs ≤ max start (last + 1) ∧
      ∃ wire, ParsedFrom record batch.records wire ∧ exchange.Reads n start last wire m := by
  unfold readAll at h
  split at h
  · rename_i hover
    obtain ⟨rfl, rfl, rfl⟩ := returns_pure_iff.mp h
    exact ⟨rfl, le_max_left _ _, [], .nil, .nothing hover⟩
  · rename_i hrange
    obtain ⟨hworld, hbound, rest, wire, hrecords, hparsed, hreads⟩ :=
      reads_of_readPages hread (Nat.not_lt.mp hrange) h
    rw [List.nil_append] at hrecords
    exact ⟨hworld, hbound.trans (le_max_right _ _), wire, hrecords ▸ hparsed, hreads⟩

variable {D : Type} [Decimal D] [DecimalFromStr D]

def FillInLedger (live : LiveTradingState D) (wire : UserFillWire) : Prop :=
  ∃ hash record, ∃ fill ∈ live.verifiedFills, wire.record hash = .ok record ∧
    ReportsFill fill record ∧ live.appliedFills.count fill.identity = 1

def FundingInLedger [Sha256] (live : LiveTradingState D) (wire : FundingWire) : Prop :=
  ∃ hash record, ∃ event ∈ live.verifiedFunding, wire.record hash = .ok record ∧
    ReportsFunding event record ∧ live.appliedFunding.count event.eventId = 1

section

variable [Sha256] {live next : LiveTradingState D}

omit [Sha256] [DecimalFromStr D] [Decimal D] in
theorem count_identity (hlive : RecordsOnce live) {fill : VerifiedExchangeFill D}
    (h : fill ∈ live.verifiedFills) : live.appliedFills.count fill.identity = 1 :=
  List.count_eq_one_of_mem hlive.fillsOnce (hlive.fills ▸ List.mem_map_of_mem h)

omit [Sha256] [DecimalFromStr D] [Decimal D] in
theorem count_eventId (hlive : RecordsOnce live) {event : VerifiedFundingEvent D}
    (h : event ∈ live.verifiedFunding) : live.appliedFunding.count event.eventId = 1 :=
  List.count_eq_one_of_mem hlive.fundingOnce (hlive.funding ▸ List.mem_map_of_mem h)

omit [Sha256] in
theorem FillInLedger.keep {wire : UserFillWire} (h : FillInLedger live wire)
    (hnext : RecordsOnce next) (hkeep : live.verifiedFills <+: next.verifiedFills) :
    FillInLedger next wire := by
  obtain ⟨hash, record, fill, hfill, hrecord, hreports, -⟩ := h
  have hkept := hkeep.subset hfill
  exact ⟨hash, record, fill, hkept, hrecord, hreports, count_identity hnext hkept⟩

theorem FundingInLedger.keep {wire : FundingWire} (h : FundingInLedger live wire)
    (hnext : RecordsOnce next) (hkeep : live.verifiedFunding <+: next.verifiedFunding) :
    FundingInLedger next wire := by
  obtain ⟨hash, record, event, hevent, hrecord, hreports, -⟩ := h
  have hkept := hkeep.subset hevent
  exact ⟨hash, record, event, hkept, hrecord, hreports, count_eventId hnext hkept⟩

omit [Sha256] [DecimalFromStr D] [Decimal D] in
theorem exists_record_of_mem {W R : Type} {record : Hash → W → Except ReconciliationError R}
    {records : List R} {wire : List W} (h : ParsedFrom record records wire) {event : W}
    (hevent : event ∈ wire) : ∃ hash, ∃ parsed ∈ records, record hash event = .ok parsed := by
  induction h with
  | nil => cases hevent
  | @cons parsed first records rest hparsed _ ih =>
    rcases List.mem_cons.mp hevent with rfl | hevent
    · obtain ⟨hash, hhash⟩ := hparsed
      exact ⟨hash, parsed, List.mem_cons_self, hhash⟩
    · obtain ⟨hash, other, hother, hhash⟩ := ih hevent
      exact ⟨hash, other, List.mem_cons_of_mem _ hother, hhash⟩

variable {fills : EventBatch (UserFill D)} {funding : EventBatch (FundingRecord D)}

theorem fillInLedger_of_booked (h : BatchBooked live fills funding next) {wire : List UserFillWire}
    (hparsed : ParsedFrom UserFillWire.record fills.records wire) :
    ∀ event ∈ wire, FillInLedger next event := by
  intro event hevent
  obtain ⟨hash, record, hmem, hrecord⟩ := exists_record_of_mem hparsed hevent
  obtain ⟨fill, hfill, hreports⟩ := h.fillsBooked record hmem
  exact ⟨hash, record, fill, hfill, hrecord, hreports, count_identity h.once hfill⟩

theorem fundingInLedger_of_booked (h : BatchBooked live fills funding next)
    {wire : List FundingWire} (hparsed : ParsedFrom FundingWire.record funding.records wire) :
    ∀ event ∈ wire, FundingInLedger next event := by
  intro event hevent
  obtain ⟨hash, record, hmem, hrecord⟩ := exists_record_of_mem hparsed hevent
  obtain ⟨booked, hbooked, hreports⟩ := h.fundingBooked record hmem
  exact ⟨hash, record, booked, hbooked, hrecord, hreports, count_eventId h.once hbooked⟩

end

/-- The exchange answers from its records of fills and of funding, where a request succeeds. -/
structure AnswersFrom (environment : ℕ → (op : SignerOp D) → op.Choice)
    (fills : GrowingExchange UserFillWire UserFillWire.time)
    (funding : GrowingExchange FundingWire FundingWire.time) : Prop where
  fills : ∀ n cursor, environment n (.readFills cursor) =
      readFills cursor ((fills.atInstant n).answer cursor) (fills.sourceHash n cursor) ∨
    ∃ error, environment n (.readFills cursor) = .error error
  funding : ∀ n cursor, environment n (.readFunding cursor) =
      readFunding cursor ((funding.atInstant n).answer cursor) (funding.sourceHash n cursor) ∨
    ∃ error, environment n (.readFunding cursor) = .error error

section

variable {environment : ℕ → (op : SignerOp D) → op.Choice}
  {fills : GrowingExchange UserFillWire UserFillWire.time}
  {funding : GrowingExchange FundingWire FundingWire.time} {thread : ℕ}

theorem readsFrom_fills (h : AnswersFrom environment fills funding) :
    ReadsFrom fills thread environment UserFillWire.record
      fun cursor => SignerAction.attempt (.readFills cursor) SignerAction.fromExchange := by
  intro cursor n k w v page hreturns
  obtain ⟨answer, hanswer, hok, hk⟩ := returns_attempt_iff.mp hreturns
  cases hanswer
  have hread := fromExchange_eq_ok_iff.mp hok
  refine ⟨hk, rfl, ?_⟩
  rcases h.fills n cursor with hpage | ⟨error, herror⟩
  · exact hpage.symm.trans hread
  · exact nomatch herror.symm.trans hread

theorem readsFrom_funding (h : AnswersFrom environment fills funding) :
    ReadsFrom funding thread environment FundingWire.record
      fun cursor => SignerAction.attempt (.readFunding cursor) SignerAction.fromExchange := by
  intro cursor n k w v page hreturns
  obtain ⟨answer, hanswer, hok, hk⟩ := returns_attempt_iff.mp hreturns
  cases hanswer
  have hread := fromExchange_eq_ok_iff.mp hok
  refine ⟨hk, rfl, ?_⟩
  rcases h.funding n cursor with hpage | ⟨error, herror⟩
  · exact hpage.symm.trans hread
  · exact nomatch herror.symm.trans hread

/-- The two readings of a call that starts at an instant are whole. -/
def WholeCall (fills : GrowingExchange UserFillWire UserFillWire.time)
    (funding : GrowingExchange FundingWire FundingWire.time) (n : ℕ) (live : LiveTradingState D)
    (nowMs : ℕ) : Prop :=
  fills.Whole n live.fillCursorMs nowMs ∧ ∀ wire k, fills.Reads n live.fillCursorMs nowMs wire k →
    funding.Whole k live.fundingCursorMs nowMs

/-- The records up to the ledger's two cursors are in the ledger. -/
structure LedgerCovers [Sha256] (fills : GrowingExchange UserFillWire UserFillWire.time)
    (funding : GrowingExchange FundingWire FundingWire.time) (cursor : ℕ)
    (live : LiveTradingState D) : Prop where
  once : RecordsOnce live
  fills : fills.log.Covers (FillInLedger live) cursor live.fillCursorMs
  funding : funding.log.Covers (FundingInLedger live) cursor live.fundingCursorMs

/-- The records up to a call's `now_ms` are in the ledger. -/
structure CallCovers [Sha256] (fills : GrowingExchange UserFillWire UserFillWire.time)
    (funding : GrowingExchange FundingWire FundingWire.time) (cursor nowMs : ℕ)
    (live : LiveTradingState D) : Prop where
  fills : fills.log.Covers (FillInLedger live) cursor (nowMs + 1)
  funding : funding.log.Covers (FundingInLedger live) cursor (nowMs + 1)

theorem ledgerCovers_of_batch [Sha256] (hanswers : AnswersFrom environment fills funding)
    {live next : LiveTradingState D} {nowMs n m cursor : ℕ} {w v : SignerWorld D}
    {reading : AccountReading D} {registry : SubmissionRegistry D} {batch : AppliedExchangeBatch D}
    (hreading : Returns thread environment (readReconciliation live nowMs) n w reading m v)
    (happly : applyAuthenticatedBatches live registry reading.fills reading.funding
      reading.account.equity = .ok (next, batch))
    (hwhole : WholeCall fills funding n live nowMs)
    (hlive : LedgerCovers fills funding cursor live) :
    LedgerCovers fills funding cursor next ∧ CallCovers fills funding cursor nowMs next := by
  obtain ⟨fillBatch, k, u, hfills, hrest⟩ := returns_bind_iff.mp hreading
  obtain ⟨fundingBatch, l, u', hfunding, hrest'⟩ := returns_bind_iff.mp hrest
  obtain ⟨account, l', u'', haccount, hdone⟩ := returns_bind_iff.mp hrest'
  obtain ⟨rfl, -, -⟩ := returns_pure_iff.mp hdone
  obtain ⟨-, hfillCursor, fillWire, hfillParsed, hfillReads⟩ :=
    reads_of_readAll (readsFrom_fills hanswers) hfills
  obtain ⟨-, hfundingCursor, fundingWire, hfundingParsed, hfundingReads⟩ :=
    reads_of_readAll (readsFrom_funding hanswers) hfunding
  have hbooked := batchBooked_of_apply hlive.once happly
  have hcoverFills := hlive.fills.extend
    (fun wire hwire => hwire.keep hbooked.once hbooked.keptFills) hfillReads hwhole.1
    (fillInLedger_of_booked hbooked hfillParsed)
  have hcoverFunding := hlive.funding.extend
    (fun wire hwire => hwire.keep hbooked.once hbooked.keptFunding) hfundingReads
    (hwhole.2 _ _ hfillReads) (fundingInLedger_of_booked hbooked hfundingParsed)
  refine ⟨⟨hbooked.once, hcoverFills.mono ?_, hcoverFunding.mono ?_⟩,
    hcoverFills.mono (le_max_right _ _), hcoverFunding.mono (le_max_right _ _)⟩
  · exact hbooked.fillCursor ▸ hfillCursor
  · exact hbooked.fundingCursor ▸ hfundingCursor

end

section

variable {environment : ℕ → (op : SignerOp D) → op.Choice} {thread : ℕ}

section

omit [DecimalFromStr D]

theorem ledgerFile_respond {w w' : SignerWorld D} {op : SignerOp D} {choice : op.Choice}
    {answer : op.Answer} (hop : PlainOp op) (h : w.respond thread op choice = some (answer, w')) :
    w'.ledgerFile = w.ledgerFile := by
  cases op with
  | submitIoc request => cases hop
  | saveLedger live => cases hop
  | acquire lock =>
    rw [(respond_acquire_eq_some h).2]
    cases lock <;> rfl
  | release lock =>
    rw [respond_release h]
    split
    · cases lock <;> rfl
    · rfl
  | callRegistry call =>
    unfold SignerWorld.respond at h
    dsimp only at h
    split at h <;> cases h <;> rfl
  | nextNonce unixMillis =>
    obtain ⟨-, rfl⟩ := Prod.mk.inj (Option.some.inj h)
    change (w.allocateNonce unixMillis).2.ledgerFile = _
    unfold SignerWorld.allocateNonce
    dsimp only
    split <;> rfl
  | persist =>
    obtain ⟨-, rfl⟩ := Prod.mk.inj (Option.some.inj h)
    rfl
  | panic => cases h
  | _ =>
    cases h
    rfl

theorem always_ledgerFile {α : Type} {action : SignerAction D α} (hplain : Plain action)
    {J : Option (LiveTradingState D) → Prop} {n : ℕ} {w : SignerWorld D} (h : J w.ledgerFile) :
    action.run.Always (SignerWorld.respond thread) environment (fun v => J v.ledgerFile) n w :=
  Program.always_of_onlyAsks
    (fun _ _ _ _ _ hop hfile hrespond => (ledgerFile_respond hop hrespond).symm ▸ hfile) hplain h

theorem always_withLock {α : Type} {lock : SignerLock} {body : SignerAction D α}
    {J : Option (LiveTradingState D) → Prop} {n : ℕ} {w : SignerWorld D} (h : J w.ledgerFile)
    (hbody : ∀ v : SignerWorld D, J v.ledgerFile → v.registry = w.registry →
      body.run.Always (SignerWorld.respond thread) environment (fun v => J v.ledgerFile)
        (n + 1) v) :
    (SignerAction.withLock lock body).run.Always (SignerWorld.respond thread) environment
      (fun v => J v.ledgerFile) n w := by
  refine Program.always_ask h fun _ v hacquire => ?_
  have hlocked : J v.ledgerFile := (ledgerFile_respond (by trivial) hacquire).symm ▸ h
  have hregistry : v.registry = w.registry := by
    rw [(respond_acquire_eq_some hacquire).2, withHolder_registry]
  have halways := hbody v hlocked hregistry
  refine Program.always_bind halways fun result m u heval => ?_
  have hended : J u.ledgerFile := halways.eval heval
  exact Program.always_ask hended fun _ u' hrelease =>
    Program.always_done ((ledgerFile_respond (by trivial) hrelease).symm ▸ hended)

theorem always_saveLedger {next : LiveTradingState D} {J : Option (LiveTradingState D) → Prop}
    {n : ℕ} {w : SignerWorld D} (h : J w.ledgerFile) (hnext : J (some next)) :
    (SignerAction.attempt (.saveLedger next) id : SignerAction D Unit).run.Always
      (SignerWorld.respond thread) environment (fun v => J v.ledgerFile) n w := by
  refine Program.always_ask h fun _ v hwrite => Program.always_done ?_
  obtain ⟨-, rfl⟩ := Prod.mk.inj (Option.some.inj hwrite)
  change J (SignerOp.WriteOutcome.apply (environment n (.saveLedger next)) w.ledgerFile next).2
  generalize environment n (.saveLedger next) = outcome
  cases outcome with
  | written => exact hnext
  | failedBefore error => exact h
  | failedAfter error => exact hnext

end

variable [Sha256]

omit [DecimalFromStr D] in
theorem always_applyReading {live : LiveTradingState D} {reading : AccountReading D}
    {J : Option (LiveTradingState D) → Prop} {n : ℕ} {w : SignerWorld D} (h : J w.ledgerFile)
    (hsave : ∀ next batch, applyAuthenticatedBatches live w.registry reading.fills
      reading.funding reading.account.equity = .ok (next, batch) → J (some next)) :
    (applyReading live reading).run.Always (SignerWorld.respond thread) environment
      (fun v => J v.ledgerFile) n w := by
  refine always_withLock h fun v hlocked hregistry => ?_
  have hasked := @always_ledgerFile _ _ environment thread _ (SignerAction.ask .readRegistry)
    (plain_ask (by trivial)) J (n + 1) v hlocked
  refine Program.always_exceptBind hasked fun registry m u hread => ?_
  have hfile := hasked.eval hread
  obtain ⟨hrespond, -⟩ := returns_ask_iff.mp hread
  cases hrespond
  refine Program.always_exceptBind (always_ledgerFile (plain_fromResult _) hfile)
    fun applied m' u' happly => ?_
  obtain ⟨hok, -, rfl⟩ := returns_fromResult_iff.mp happly
  have hwritten := @always_saveLedger _ _ environment thread applied.1 J m' _ hfile
    (hsave applied.1 applied.2 (hregistry ▸ hok))
  exact Program.always_exceptBind hwritten fun _ m'' u'' hreturned =>
    Program.always_done (hwritten.eval hreturned)

omit [DecimalFromStr D] in
theorem always_reconcileStartup {live : LiveTradingState D}
    {nowMs requiredConfirmations minimumIntervalMs : ℕ} {J : Option (LiveTradingState D) → Prop}
    {n : ℕ} {w : SignerWorld D} (h : J w.ledgerFile)
    (hsave : ∀ reading m v next batch, Returns thread environment
        (readReconciliation live nowMs) (n + 1) { w with startupReconciled := false } reading m v →
      applyAuthenticatedBatches live v.registry reading.fills reading.funding
        reading.account.equity = .ok (next, batch) → J (some next)) :
    (reconcileStartup live nowMs requiredConfirmations minimumIntervalMs).Always
      (SignerWorld.respond thread) environment (fun v => J v.ledgerFile) n w := by
  refine Program.always_ask h fun _ v hready => ?_
  obtain ⟨-, rfl⟩ := Prod.mk.inj (Option.some.inj hready)
  have hread := @always_ledgerFile _ _ environment thread _ _
    (plain_readReconciliation live nowMs) J (n + 1) { w with startupReconciled := false } h
  have happlied : (do
      let reading ← readReconciliation live nowMs
      let applied ← applyReading live reading
      pure (reading.account, applied) : SignerAction D _).run.Always (SignerWorld.respond thread)
        environment (fun v => J v.ledgerFile) (n + 1) { w with startupReconciled := false } := by
    refine Program.always_exceptBind hread fun reading m v hreading => ?_
    have happly := @always_applyReading _ _ environment thread _ live reading J m v
      (hread.eval hreading)
      fun next batch hok => hsave reading m v next batch hreading hok
    exact Program.always_exceptBind happly fun _ m' v' hreturned =>
      Program.always_done (happly.eval hreturned)
  refine Program.always_bind happlied fun result m v heval => ?_
  have hfile := happlied.eval heval
  match result with
  | .error error => exact Program.always_done hfile
  | .ok (account, next, batch) =>
    have hfinish := @always_ledgerFile _ _ environment thread _ _
      (plain_finishStartup next account nowMs requiredConfirmations minimumIntervalMs) J m v hfile
    exact Program.always_bind hfinish fun finished m' v' hfinished =>
      Program.always_done (hfinish.eval hfinished)

/-- The call reads the account and its batch is applied to the live state, which gives the next
one to save. -/
def SavesLedger (environment : ℕ → (op : SignerOp D) → op.Choice) (thread : ℕ)
    (live : LiveTradingState D) (nowMs n : ℕ) (w : SignerWorld D) (next : LiveTradingState D) :
    Prop :=
  ∃ reading m v batch, Returns thread environment (readReconciliation live nowMs) (n + 1)
      { w with startupReconciled := false } reading m v ∧
    applyAuthenticatedBatches live v.registry reading.fills reading.funding
      reading.account.equity = .ok (next, batch)

omit [DecimalFromStr D] in
/-- **The ledger file during a call.**  Wherever `reconcile_startup` is stopped, the file holds the
old ledger or the one with the batch that was read. -/
theorem ledgerFile_reconcileStartup (live : LiveTradingState D)
    (nowMs requiredConfirmations minimumIntervalMs n : ℕ) (w : SignerWorld D) :
    (reconcileStartup live nowMs requiredConfirmations minimumIntervalMs).Always
      (SignerWorld.respond thread) environment (fun v => v.ledgerFile = w.ledgerFile ∨
        ∃ next, SavesLedger environment thread live nowMs n w next ∧ v.ledgerFile = some next)
      n w := by
  refine @always_reconcileStartup _ _ environment thread _ live nowMs requiredConfirmations
    minimumIntervalMs (fun file => file = w.ledgerFile ∨
      ∃ next, SavesLedger environment thread live nowMs n w next ∧ file = some next) n w
    (.inl rfl) ?_
  intro reading m v next batch hreading happly
  exact .inr ⟨next, ⟨reading, m, v, batch, hreading, happly⟩, rfl⟩

omit [DecimalFromStr D] in
/-- **The live state a call leaves behind**: the old one, or the one with the batch that was read,
which is the one of a call that succeeds. -/
theorem live_of_reconcileStartup {live next : LiveTradingState D}
    {nowMs requiredConfirmations minimumIntervalMs n m : ℕ} {w w' : SignerWorld D}
    {result : Except SignerError (AppliedExchangeBatch D)}
    (h : (reconcileStartup live nowMs requiredConfirmations minimumIntervalMs).eval
      (SignerWorld.respond thread) environment n w = some ((result, next), m, w')) :
    (∃ error, result = .error error) ∧ next = live ∨
      SavesLedger environment thread live nowMs n w next := by
  obtain ⟨_, v, hready, hrest⟩ := Program.eval_ask_eq_some_iff.mp h
  obtain ⟨-, rfl⟩ := Prod.mk.inj (Option.some.inj hready)
  obtain ⟨applied, k, v, happlied, hcontinue⟩ := Program.eval_bind_eq_some_iff.mp hrest
  match applied with
  | .error error =>
    cases hcontinue
    exact .inl ⟨⟨error, rfl⟩, rfl⟩
  | .ok (account, saved, batch) =>
    obtain ⟨finished, l, u, -, hdone⟩ := Program.eval_bind_eq_some_iff.mp hcontinue
    cases hdone
    obtain ⟨reading, l, u, hreading, happly⟩ := returns_bind_iff.mp happlied
    obtain ⟨other, l', u', hsaved, hpure⟩ := returns_bind_iff.mp happly
    obtain ⟨hsame, -, -⟩ := returns_pure_iff.mp hpure
    cases hsame
    obtain ⟨l'', u'', hbody, -⟩ := returns_withLock hsaved
    obtain ⟨registry, l'', v', hregistry, happly⟩ := returns_bind_iff.mp hbody
    obtain ⟨hrespond, -⟩ := returns_ask_iff.mp hregistry
    cases hrespond
    obtain ⟨again, l''', v'', hresult, hwrite⟩ := returns_bind_iff.mp happly
    obtain ⟨hok, -, -⟩ := returns_fromResult_iff.mp hresult
    obtain ⟨_, l4, v4, -, hlast⟩ := returns_bind_iff.mp hwrite
    obtain ⟨rfl, -, -⟩ := returns_pure_iff.mp hlast
    rw [withHolder_registry] at hok
    exact .inr ⟨reading, _, _, batch, hreading, hok⟩

end

section

variable [Sha256] {environment : ℕ → (op : SignerOp D) → op.Choice}
  {fills : GrowingExchange UserFillWire UserFillWire.time}
  {funding : GrowingExchange FundingWire FundingWire.time}

/-- In a call that gets as far as saving the ledger, and in one that is cut off after it has been
written, both readings are whole. -/
def WholeStep (environment : ℕ → (op : SignerOp D) → op.Choice)
    (fills : GrowingExchange UserFillWire UserFillWire.time)
    (funding : GrowingExchange FundingWire FundingWire.time) (process : LedgerProcess D) :
    LedgerStep D → Prop
  | .reconcile nowMs _ _ => ∀ live ∈ process.live,
      (∃ next, SavesLedger environment 0 live nowMs process.operations process.world next) →
        WholeCall fills funding (process.operations + 1) live nowMs
  | .crash nowMs requiredConfirmations minimumIntervalMs operations => ∀ live ∈ process.live,
      (process.crash environment live nowMs requiredConfirmations minimumIntervalMs
        operations).world.ledgerFile ≠ process.world.ledgerFile →
        WholeCall fills funding (process.operations + 1) live nowMs
  | _ => True

/-- The ledgers in memory and in the file cover the exchange up to their cursors. -/
structure ProcessCovers (fills : GrowingExchange UserFillWire UserFillWire.time)
    (funding : GrowingExchange FundingWire FundingWire.time) (cursor : ℕ)
    (process : LedgerProcess D) : Prop where
  memory : ∀ live ∈ process.live, LedgerCovers fills funding cursor live
  file : ∀ live ∈ process.world.ledgerFile, LedgerCovers fills funding cursor live

variable {cursor : ℕ}

theorem ledgerCovers_of_saves (hanswers : AnswersFrom environment fills funding)
    {live next : LiveTradingState D} {nowMs n : ℕ} {w : SignerWorld D}
    (hsaves : SavesLedger environment 0 live nowMs n w next)
    (hwhole : WholeCall fills funding (n + 1) live nowMs)
    (hlive : LedgerCovers fills funding cursor live) :
    LedgerCovers fills funding cursor next ∧ CallCovers fills funding cursor nowMs next := by
  obtain ⟨reading, m, v, batch, hreading, happly⟩ := hsaves
  exact ledgerCovers_of_batch hanswers hreading happly hwhole hlive

omit [Sha256] [DecimalFromStr D] in
theorem ledgerFile_restarted {w w' : SignerWorld D} {initialNonce : ℕ}
    (h : w.restarted initialNonce = .ok w') : w'.ledgerFile = w.ledgerFile := by
  unfold SignerWorld.restarted at h
  obtain ⟨registry, -, hfloor⟩ := of_bind h
  obtain ⟨floor, -, hdone⟩ := of_bind hfloor
  cases hdone
  rfl

theorem processCovers_step (hanswers : AnswersFrom environment fills funding)
    {process : LedgerProcess D} (step : LedgerStep D)
    (hprocess : ProcessCovers fills funding cursor process)
    (hwhole : WholeStep environment fills funding process step) :
    ProcessCovers fills funding cursor (process.step environment step) := by
  unfold LedgerProcess.step
  cases step with
  | other world operations => exact ⟨hprocess.memory, hprocess.file⟩
  | start initialNonce =>
    dsimp only
    split
    · exact hprocess
    unfold LedgerProcess.start
    split
    · rename_i world live hworld hfile
      split
      · have hlive := hprocess.file live hfile
        refine ⟨fun other hother => Option.some.inj hother ▸ hlive, fun other hother => ?_⟩
        have hsame : world.ledgerFile = some live := (ledgerFile_restarted hworld).trans hfile
        rw [hsame] at hother
        exact Option.some.inj hother ▸ hlive
      · exact hprocess
    · exact hprocess
  | crash nowMs requiredConfirmations minimumIntervalMs operations =>
    dsimp only
    split
    · exact hprocess
    rename_i live hlive
    refine ⟨fun other hother => (nomatch hother), fun other hother => ?_⟩
    by_cases hsame : (process.crash environment live nowMs requiredConfirmations minimumIntervalMs
        operations).world.ledgerFile = process.world.ledgerFile
    · exact hprocess.file other (hsame ▸ hother)
    · rcases ledgerFile_reconcileStartup live nowMs requiredConfirmations minimumIntervalMs
        process.operations process.world operations with hold | ⟨next, hsaves, hfile⟩
      · exact absurd hold hsame
      · have hnext : other = next := Option.some.inj (hother.symm.trans hfile)
        exact hnext ▸ (ledgerCovers_of_saves hanswers hsaves (hwhole live hlive hsame)
          (hprocess.memory live hlive)).1
  | reconcile nowMs requiredConfirmations minimumIntervalMs =>
    dsimp only
    split
    · exact hprocess
    rename_i live hlive
    unfold LedgerProcess.reconcile
    split
    · exact hprocess
    rename_i result next operations world heval
    have hmemory := hprocess.memory live hlive
    have hsaved : ∀ saved, SavesLedger environment 0 live nowMs process.operations process.world
        saved → LedgerCovers fills funding cursor saved := fun saved hsaves =>
      (ledgerCovers_of_saves hanswers hsaves (hwhole live hlive ⟨saved, hsaves⟩) hmemory).1
    refine ⟨fun other hother => ?_, fun other hother => ?_⟩
    · obtain rfl : next = other := Option.some.inj hother
      rcases live_of_reconcileStartup heval with ⟨-, rfl⟩ | hsaves
      · exact hmemory
      · exact hsaved next hsaves
    · rcases (ledgerFile_reconcileStartup live nowMs requiredConfirmations minimumIntervalMs
        process.operations process.world).eval heval with hold | ⟨saved, hsaves, hfile⟩
      · exact hprocess.file other (hold ▸ hother)
      · obtain rfl : other = saved := Option.some.inj (hother.symm.trans hfile)
        exact hsaved other hsaves

omit [Sha256] [DecimalFromStr D] in
theorem recordsOnce_new {startingEquity : D} {live : LiveTradingState D}
    (h : LiveTradingState.new startingEquity cursor = .ok live) :
    RecordsOnce live ∧ live.fillCursorMs = cursor ∧ live.fundingCursorMs = cursor := by
  unfold LiveTradingState.new at h
  split at h
  · cases h
  · cases h
    exact ⟨⟨rfl, List.nodup_nil, rfl, List.nodup_nil⟩, rfl, rfl⟩

/-- **No record is skipped between reconciliations.**  In a run whose calls are whole, every record
of the exchange with a stamp from the ledger's first cursor to the `now_ms` of a call that succeeds
is in the ledger it leaves, exactly once. -/
theorem records_not_skipped (hanswers : AnswersFrom environment fills funding)
    {startingEquity : D} {live : LiveTradingState D}
    (hnew : LiveTradingState.new startingEquity cursor = .ok live) {world : SignerWorld D}
    (hfile : world.ledgerFile = none) (operations : ℕ) (steps : List (LedgerStep D))
    (nowMs requiredConfirmations minimumIntervalMs : ℕ)
    (hwhole : AllSteps (LedgerProcess.step environment) (WholeStep environment fills funding)
      ⟨some live, world, operations⟩
      (steps ++ [.reconcile nowMs requiredConfirmations minimumIntervalMs]))
    {before next : LiveTradingState D} {batch : AppliedExchangeBatch D} {m : ℕ}
    {w : SignerWorld D}
    (hbefore : (run (LedgerProcess.step environment) ⟨some live, world, operations⟩ steps).live =
      some before)
    (hcall : (reconcileStartup before nowMs requiredConfirmations minimumIntervalMs).eval
      (SignerWorld.respond 0) environment
      (run (LedgerProcess.step environment) ⟨some live, world, operations⟩ steps).operations
      (run (LedgerProcess.step environment) ⟨some live, world, operations⟩ steps).world =
        some ((.ok batch, next), m, w)) :
    (∀ n, ∀ fill ∈ fills.log.records n, cursor ≤ eventMs UserFillWire.time fill →
      eventMs UserFillWire.time fill ≤ nowMs → FillInLedger next fill) ∧
    ∀ n, ∀ event ∈ funding.log.records n, cursor ≤ eventMs FundingWire.time event →
      eventMs FundingWire.time event ≤ nowMs → FundingInLedger next event := by
  obtain ⟨honce, hfills, hfunding⟩ := recordsOnce_new hnew
  have hstart : ProcessCovers fills funding cursor ⟨some live, world, operations⟩ := by
    refine ⟨fun other hother => ?_, fun other hother => nomatch hfile.symm.trans hother⟩
    obtain rfl : live = other := Option.some.inj hother
    refine ⟨honce, ?_, ?_⟩
    · intro n fill _ hfrom hto
      exact absurd (hfills ▸ hto) (Nat.not_lt.mpr hfrom)
    · intro n event _ hfrom hto
      exact absurd (hfunding ▸ hto) (Nat.not_lt.mpr hfrom)
  obtain ⟨hsteps, hlast, -⟩ := allSteps_append.mp hwhole
  have hreached := forall_states_of_steps
    (fun process step hprocess hstep => processCovers_step hanswers step hprocess hstep)
    hstart hsteps _ (run_mem_states _ _)
  rcases live_of_reconcileStartup hcall with ⟨⟨error, herror⟩, -⟩ | hsaves
  · cases herror
  · obtain ⟨-, hcovers⟩ := ledgerCovers_of_saves hanswers hsaves
      (hlast before hbefore ⟨next, hsaves⟩) (hreached.memory before hbefore)
    exact ⟨fun n fill hmem hfrom hto => hcovers.fills n fill hmem hfrom (Nat.lt_succ_of_le hto),
      fun n event hmem hfrom hto => hcovers.funding n event hmem hfrom (Nat.lt_succ_of_le hto)⟩

end

instance : DecimalFromStr ℚ where
  fromStr text := (DecimalFromStr.fromStr text : Except String ℤ).map fun amount => (amount : ℚ)

def orderFill (tid time : UInt64) (side : String) : UserFillWire :=
  { listedFill tid time with side, cloid := some "0x01010101010101010101010101010101" }

def appearing {W : Type} {time : W → UInt64} (instant : ℕ) (records : List W)
    (inOrder : records.Pairwise fun a b => eventMs time a ≤ eventMs time b) :
    GrowingExchange W time where
  log := {
    records := fun n => if n < instant then [] else records
    grows := fun n => by
      split
      · exact List.nil_prefix
      · rw [if_neg (by omega)]
    inOrder := fun n => by
      split
      · exact .nil
      · exact inOrder }
  size := 2000
  positive := by decide
  sourceHash _ _ := Bytes.replicate 32 0

theorem within_appearing {W : Type} {time : W → UInt64} {records : List W}
    (inOrder : records.Pairwise fun a b => eventMs time a ≤ eventMs time b) (n start last : ℕ) :
    (appearing 0 records inOrder).log.within n start last = records.filter fun event =>
      decide (start ≤ eventMs time event ∧ eventMs time event ≤ last) := by
  change (if n < 0 then [] else records).filter _ = _
  rw [if_neg (Nat.not_lt_zero n)]

def noFunding : GrowingExchange FundingWire FundingWire.time := appearing 0 [] .nil

theorem whole_noFunding (n start last : ℕ) : noFunding.Whole n start last := by
  have hnone : ∀ m, noFunding.log.within m start last = [] := fun m =>
    (within_appearing .nil m start last).trans (List.filter_nil ..)
  exact .empty (by rw [GrowingLog.page, hnone, List.take_nil]) fun m _ => hnone m

/-- An environment with these fills, these positions and no funding. -/
def exchangeEnvironment (fills : GrowingExchange UserFillWire UserFillWire.time)
    (positions : ExtTreeMap String ℚ) : ℕ → (op : SignerOp ℚ) → op.Choice
  | n, .readFills cursor =>
    readFills cursor ((fills.atInstant n).answer cursor) (fills.sourceHash n cursor)
  | n, .readFunding cursor =>
    readFunding cursor ((noFunding.atInstant n).answer cursor) (noFunding.sourceHash n cursor)
  | _, .persist | _, .saveLedger _ => .written
  | _, .readPositions => .ok ⟨positions, 1000⟩
  | _, .readEquity => .ok 1000
  | _, .sign _ _ => .error (.signing "")
  | _, .submitIoc _ => .error .unknownResult
  | _, .lookupOrder _ => .error .arithmetic
  | _, .acquire _ | _, .release _ | _, .readReady | _, .writeReady _ | _, .readRegistry
  | _, .callRegistry _ | _, .nextNonce _ | _, .panic => ()

def registeredWorld : SignerWorld ℚ :=
  { SignerWorld.fresh with
    registry := (SubmissionRegistry.empty 4).step (.register (sampleIntent (sampleCloid 1) "BTC" false)) }

def startedProcess : LedgerProcess ℚ := ⟨some (.starting 1000 0), registeredWorld, 0⟩

theorem answersFrom_exchangeEnvironment (fills : GrowingExchange UserFillWire UserFillWire.time)
    (positions : ExtTreeMap String ℚ) :
    AnswersFrom (exchangeEnvironment fills positions) fills noFunding :=
  ⟨fun _ _ => .inl rfl, fun _ _ => .inl rfl⟩

theorem exists_call {D β ω : Type} {outcome : Option ((Except SignerError β × LiveTradingState D) × ℕ × ω)}
    {count : ℕ} (h : (outcome.any fun ended => ended.1.1.toOption.isSome &&
      ended.1.2.verifiedFills.length == count) = true) :
    ∃ batch next m w, outcome = some ((.ok batch, next), m, w) ∧
      next.verifiedFills.length = count := by
  cases outcome with
  | none => cases h
  | some ended =>
    obtain ⟨⟨result, next⟩, m, w⟩ := ended
    cases result with
    | error e => cases h
    | ok batch =>
      obtain ⟨-, hcount⟩ := Bool.and_eq_true_iff.mp (show (true && _) = true from h)
      exact ⟨batch, next, m, w, rfl, eq_of_beq hcount⟩

def visibleFills : GrowingExchange UserFillWire UserFillWire.time :=
  appearing 0 [orderFill 1 5 "B"] (by decide)

theorem whole_visibleFills : visibleFills.Whole 1 0 10 := by
  refine .more (by decide) (by decide) (fun m _ => ?_) (.empty (by decide) fun m _ => ?_)
  · exact within_appearing _ m 0 _
  · exact within_appearing _ m _ 10

/-- A fill that is visible when the fills are read is in the ledger. -/
theorem records_not_skipped_visible : let _ : Sha256 := ⟨foldDigest⟩
    ∃ next : LiveTradingState ℚ, FillInLedger next (orderFill 1 5 "B") := by
  intro _
  have hnew : LiveTradingState.new (1000 : ℚ) 0 = .ok (.starting 1000 0) := by decide +kernel
  have hfile : registeredWorld.ledgerFile = none := by decide +kernel
  obtain ⟨batch, next, m, w, hcall, -⟩ := @exists_call _ _ _
    ((reconcileStartup (LiveTradingState.starting 1000 0) 10 2 1000).eval (SignerWorld.respond 0)
      (exchangeEnvironment visibleFills ((∅ : ExtTreeMap String ℚ).insert "BTC" 1)) 0
      registeredWorld) 1 (by decide +kernel)
  refine ⟨next, (records_not_skipped (answersFrom_exchangeEnvironment visibleFills _) hnew hfile 0
    [] 10 2 1000 ⟨?_, trivial⟩ rfl hcall).1 0 (orderFill 1 5 "B") (by decide) (by decide)
    (by decide)⟩
  intro live hlive _
  obtain rfl := Option.some.inj hlive
  exact ⟨whole_visibleFills, fun _ k _ => whole_noFunding k 0 10⟩

/-- A fill at 7 and one at 8 that appear after the first call has read the fills. -/
def lateFills : GrowingExchange UserFillWire UserFillWire.time :=
  appearing 6 [orderFill 1 7 "B", orderFill 2 8 "A"] (by decide)

def lateProcess [Sha256] : LedgerProcess ℚ :=
  run (LedgerProcess.step (exchangeEnvironment lateFills ∅)) startedProcess [.reconcile 10 2 1000]

/-- The first call reads up to 10 on the local clock while the exchange has not come to 7.  The
second one succeeds without the two fills, which are visible by then. -/
theorem records_skipped : let _ : Sha256 := ⟨foldDigest⟩
    ∃ before batch next m w, lateProcess.live = some before ∧
      (reconcileStartup before 20 2 1000).eval (SignerWorld.respond 0)
        (exchangeEnvironment lateFills ∅) lateProcess.operations lateProcess.world =
          some ((.ok batch, next), m, w) ∧
      ∃ fill ∈ lateFills.log.records lateProcess.operations,
        eventMs UserFillWire.time fill ≤ 20 ∧ ¬ FillInLedger next fill := by
  intro _
  obtain ⟨before, hbefore⟩ := Option.isSome_iff_exists.mp
    (by decide +kernel : lateProcess.live.isSome = true)
  obtain ⟨batch, next, m, w, hcall, hcount⟩ := @exists_call _ _ _
    ((reconcileStartup (lateProcess.live.getD (.starting 1000 0)) 20 2 1000).eval
      (SignerWorld.respond 0) (exchangeEnvironment lateFills ∅) lateProcess.operations
      lateProcess.world) 0 (by decide +kernel)
  rw [hbefore, Option.getD_some] at hcall
  refine ⟨before, batch, next, m, w, hbefore, hcall, orderFill 1 7 "B", by decide +kernel, by decide, ?_⟩
  rintro ⟨hash, record, fill, hfill, -⟩
  rw [List.eq_nil_of_length_eq_zero hcount] at hfill
  cases hfill

end CopyTrade.Analysis
