import CopyTrade.Foundation.GrowingLog
import CopyTrade.Model.Signer.Transport
import CopyTrade.Model.WholeDecimal

/-!
# Reading all fills and all funding

The pages that the signer joins are those of the log of the range: the cursor moves behind the
latest record of a page, so a page that ends between two records of one millisecond loses the second
one.
-/

namespace CopyTrade.Analysis

open Foundation Model

def eventMs {W : Type} (time : W → UInt64) (event : W) : ℕ := (time event).toNat

/-- An exchange that answers with at most `size` records of an account. -/
structure PagedExchange (W : Type) (time : W → UInt64) where
  account : List W
  inOrder : account.Pairwise fun a b => eventMs time a ≤ eventMs time b
  size : ℕ
  positive : 0 < size
  /-- The hash of the response to a request. -/
  sourceHash : EventCursor → Hash

/-- Each record is one of the wire, with the hash of some response. -/
def ParsedFrom {W R : Type} (record : Hash → W → Except ReconciliationError R) :
    List R → List W → Prop :=
  List.Forall₂ fun parsed wire => ∃ hash, record hash wire = .ok parsed

/-- The records are those of the wire, each of them once. -/
def EveryOnce {W R : Type} (record : Hash → W → Except ReconciliationError R) (records : List R)
    (wire : List W) : Prop :=
  ∃ order, order.Perm wire ∧ ParsedFrom record records order

namespace PagedExchange

variable {W R : Type} {time : W → UInt64}

def within (exchange : PagedExchange W time) (start last : ℕ) : List W :=
  exchange.account.filter fun event =>
    decide (start ≤ eventMs time event ∧ eventMs time event ≤ last)

def answer (exchange : PagedExchange W time) (cursor : EventCursor) : List W :=
  (exchange.account.filter fun event => decide (cursor.startTimeMs ≤ eventMs time event ∧
    ∀ last ∈ cursor.endTimeMs, eventMs time event ≤ last)).take exchange.size

/-- No page of the range ends between two records of one millisecond. -/
def Clean (exchange : PagedExchange W time) (start last : ℕ) : Prop :=
  PagesClean (eventMs time) exchange.size (exchange.within start last)

variable (exchange : PagedExchange W time)

theorem within_inOrder (start last : ℕ) :
    (exchange.within start last).Pairwise fun a b => eventMs time a ≤ eventMs time b :=
  exchange.inOrder.filter _

theorem answer_eq (start last : ℕ) :
    exchange.answer ⟨start, some last⟩ = (exchange.within start last).take exchange.size := by
  unfold answer within
  congr 1
  refine List.filter_congr fun event _ => ?_
  rw [decide_eq_decide]
  simp only [Option.mem_some_iff, forall_eq']

end PagedExchange

theorem foldl_cursor {W : Type} (time : W → UInt64) (page : List W) (start : ℕ) :
    page.foldl (fun next event => max next (saturatingAdd (time event).toNat 1)) start =
      if page = [] then start
      else max start (saturatingAdd (latest (eventMs time) page) 1) := by
  induction page generalizing start with
  | nil => rfl
  | cons event rest ih =>
    rw [List.foldl_cons, ih, if_neg (List.cons_ne_nil event rest)]
    have hlatest : latest (eventMs time) (event :: rest) =
        max (time event).toNat (latest (eventMs time) rest) := rfl
    rw [hlatest]
    unfold saturatingAdd
    generalize maxU64 = bound
    split
    · rename_i hnil
      subst hnil
      change _ = max start (min (max (time event).toNat 0 + 1) bound)
      omega
    · omega

theorem parsedFrom_of_mapM {W R : Type} {record : Hash → W → Except ReconciliationError R}
    {hash : Hash} {wire : List W} {records : List R}
    (h : wire.mapM (record hash) = .ok records) : ParsedFrom record records wire := by
  induction wire generalizing records with
  | nil =>
    cases h
    exact .nil
  | cons event rest ih =>
    rw [List.mapM_cons] at h
    obtain ⟨first, hfirst, h⟩ := of_bind h
    obtain ⟨others, hothers, h⟩ := of_bind h
    cases h
    exact .cons ⟨hash, hfirst⟩ (ih hothers)

section

variable {D : Type} {W R : Type} {time : W → UInt64}
  {record : Hash → W → Except ReconciliationError R}
  (exchange : PagedExchange W time) (respond : SignerWorld D → (op : SignerOp D) → op.Choice →
    Option (op.Answer × SignerWorld D))
  (environment : ℕ → (op : SignerOp D) → op.Choice)

def ReadsPages (record : Hash → W → Except ReconciliationError R)
    (read : EventCursor → SignerAction D (EventBatch R)) : Prop :=
  ∀ cursor n w, (read cursor).run.eval respond environment n w =
    some (SignerAction.fromExchange (readPage time record cursor (exchange.answer cursor)
      (exchange.sourceHash cursor)), n + 1, w)

variable {exchange respond environment} {read : EventCursor → SignerAction D (EventBatch R)}

/-- A page that the transport accepts: its records are parsed from the first ones of the range, and
its cursor stands behind the latest of them. -/
theorem page_of_readPage {start last : ℕ} {sourceHash : Hash} {page : EventBatch R}
    (h : readPage time record ⟨start, some last⟩ (exchange.answer ⟨start, some last⟩) sourceHash =
      .ok page) :
    ParsedFrom record page.records ((exchange.within start last).take exchange.size) ∧
      page.nextCursor.endTimeMs = some last ∧
      page.nextCursor.startTimeMs =
        if (exchange.within start last).take exchange.size = [] then start
        else max start (saturatingAdd (latest (eventMs time)
          ((exchange.within start last).take exchange.size)) 1) := by
  rw [exchange.answer_eq] at h
  unfold readPage at h
  obtain ⟨records, hrecords, h⟩ := of_bind h
  cases h
  exact ⟨parsedFrom_of_mapM hrecords, rfl, foldl_cursor time _ start⟩

theorem page_of_read (hread : ReadsPages exchange respond environment record read)
    {start last n k : ℕ} {w v : SignerWorld D} {page : EventBatch R}
    (h : (read ⟨start, some last⟩).run.eval respond environment n w = some (.ok page, k, v)) :
    ParsedFrom record page.records ((exchange.within start last).take exchange.size) ∧
      page.nextCursor.endTimeMs = some last ∧
      page.nextCursor.startTimeMs =
        if (exchange.within start last).take exchange.size = [] then start
        else max start (saturatingAdd (latest (eventMs time)
          ((exchange.within start last).take exchange.size)) 1) := by
  rw [hread, Option.some.injEq, Prod.mk.injEq] at h
  obtain ⟨hpage, -⟩ := h
  refine @page_of_readPage _ _ _ record exchange start last
    (exchange.sourceHash ⟨start, some last⟩) page ?_
  cases hanswer : readPage time record ⟨start, some last⟩ (exchange.answer ⟨start, some last⟩)
      (exchange.sourceHash ⟨start, some last⟩) with
  | error e =>
    rw [hanswer] at hpage
    cases hpage
  | ok other =>
    rw [hanswer] at hpage
    cases hpage
    rfl

theorem behind_within (start last : ℕ) {page : List W}
    (hpage : page = (exchange.within start last).take exchange.size) :
    behind (eventMs time) exchange.size (exchange.within start last) =
      exchange.within (max start (latest (eventMs time) page + 1)) last := by
  subst hpage
  unfold behind
  conv_lhs => rhs; rw [PagedExchange.within]
  rw [List.filter_filter]
  unfold PagedExchange.within
  refine List.filter_congr fun event _ => ?_
  rw [← Bool.decide_and, decide_eq_decide]
  omega

variable {batch : EventBatch R} {kind : String}

theorem readPages_stuck (hread : ReadsPages exchange respond environment record read)
    {last pages n m : ℕ} {all : List R} {w w' : SignerWorld D}
    (hleft : (exchange.within maxU64 last).take exchange.size ≠ []) :
    (readPages read kind last pages ⟨maxU64, some last⟩ all).run.eval respond environment n w ≠
      some (.ok batch, m, w') := by
  intro h
  cases pages with
  | zero => cases h
  | succ pages =>
    rw [readPages] at h
    obtain ⟨page, k, v, hpage, h⟩ := Program.eval_exceptBind_eq_ok_iff.mp h
    obtain ⟨hparsed, -, hnext⟩ := page_of_read hread hpage
    have hrecords : page.records.isEmpty = false := by
      cases hnil : page.records with
      | nil =>
        rw [hnil] at hparsed
        exact absurd (List.forall₂_nil_left_iff.mp hparsed) hleft
      | cons => rfl
    have hsame : page.nextCursor.startTimeMs ≤ maxU64 := by
      rw [hnext, if_neg hleft]
      exact max_le le_rfl (min_le_right _ _)
    rw [hrecords, if_neg Bool.false_ne_true, if_pos hsame] at h
    cases h

theorem readPages_records (hread : ReadsPages exchange respond environment record read)
    {start last pages n m : ℕ} {all : List R} {w w' : SignerWorld D}
    (h : (readPages read kind last pages ⟨start, some last⟩ all).run.eval respond environment n w =
      some (.ok batch, m, w')) :
    ∃ rest, batch.records = all ++ rest ∧ ParsedFrom record rest
      (paged (eventMs time) exchange.size (exchange.within start last)) := by
  induction pages generalizing start n w all with
  | zero => cases h
  | succ pages ih =>
    rw [readPages] at h
    obtain ⟨page, k, v, hpage, h⟩ := Program.eval_exceptBind_eq_ok_iff.mp h
    obtain ⟨hparsed, hend, hnext⟩ := page_of_read hread hpage
    rw [paged]
    by_cases hempty : (exchange.within start last).take exchange.size = []
    · rw [hempty] at hparsed
      rw [List.forall₂_nil_right_iff.mp hparsed] at h
      cases h
      exact ⟨[], (List.append_nil _).symm, by rw [if_pos hempty]; exact .nil⟩
    · rw [if_neg hempty] at hnext ⊢
      have hrecords : page.records.isEmpty = false := by
        cases hnil : page.records with
        | nil =>
          rw [hnil] at hparsed
          exact absurd (List.forall₂_nil_left_iff.mp hparsed) hempty
        | cons => rfl
      rw [hrecords, if_neg Bool.false_ne_true] at h
      split at h
      · cases h
      rename_i hmoved
      have hbehind : behind (eventMs time) exchange.size (exchange.within start last) =
          exchange.within (max start (latest (eventMs time)
            ((exchange.within start last).take exchange.size) + 1)) last :=
        behind_within start last rfl
      rw [hbehind]
      split at h
      · -- the cursor is behind the end of the range
        rename_i hover
        cases h
        have hnil : exchange.within (max start (latest (eventMs time)
            ((exchange.within start last).take exchange.size) + 1)) last = [] := by
          unfold PagedExchange.within
          rw [List.filter_eq_nil_iff]
          intro event _
          rw [decide_eq_true_eq]
          rw [hnext] at hover hmoved
          unfold saturatingAdd at hover hmoved
          unfold PagedExchange.within at hover hmoved
          omega
        refine ⟨page.records, rfl, ?_⟩
        rw [hnil, paged, if_pos List.take_nil, List.append_nil]
        exact hparsed
      · rename_i hinside
        have hcursor : page.nextCursor = ⟨page.nextCursor.startTimeMs, some last⟩ := by
          rw [← hend]
        rw [hcursor] at h
        rcases Nat.lt_or_ge (latest (eventMs time)
          ((exchange.within start last).take exchange.size)) maxU64 with hlt | hge
        · have hstart : page.nextCursor.startTimeMs = max start (latest (eventMs time)
              ((exchange.within start last).take exchange.size) + 1) := by
            rw [hnext]
            unfold saturatingAdd
            rw [min_eq_left hlt]
          rw [hstart] at h
          obtain ⟨rest, hrest, hparsedRest⟩ := ih h
          exact ⟨page.records ++ rest, by rw [hrest, List.append_assoc],
            List.rel_append hparsed hparsedRest⟩
        · -- the cursor cannot move behind a record of the last millisecond there is
          have hstart : page.nextCursor.startTimeMs = maxU64 := by
            rw [hnext] at hmoved ⊢
            dsimp only at hmoved
            unfold saturatingAdd at hmoved ⊢
            omega
          rw [hstart] at h
          obtain ⟨event, hevent, hlatest⟩ := @exists_time_eq_latest _ (eventMs time) _ hempty
          have hmem := List.mem_filter.mp (List.mem_of_mem_take hevent)
          have hleft : event ∈ exchange.within maxU64 last := by
            refine List.mem_filter.mpr ⟨hmem.1, ?_⟩
            have hrange := of_decide_eq_true hmem.2
            rw [decide_eq_true_eq, hlatest]
            exact ⟨hge, hlatest ▸ hrange.2⟩
          refine absurd h (readPages_stuck hread fun hnil => ?_)
          rcases List.take_eq_nil_iff.mp hnil with hzero | hnil
          · exact exchange.positive.ne' hzero
          · rw [hnil] at hleft
            cases hleft

theorem parsedFrom_of_readAll (hread : ReadsPages exchange respond environment record read)
    {start last n m : ℕ} {w w' : SignerWorld D}
    (h : (readAll read kind start last).run.eval respond environment n w =
      some (.ok batch, m, w')) :
    ParsedFrom record batch.records
      (paged (eventMs time) exchange.size (exchange.within start last)) := by
  unfold readAll at h
  split at h
  · rename_i hover
    cases h
    have hnil : exchange.within start last = [] := by
      unfold PagedExchange.within
      rw [List.filter_eq_nil_iff]
      intro event _
      rw [decide_eq_true_eq]
      omega
    rw [hnil, paged, if_pos List.take_nil]
    exact .nil
  · obtain ⟨rest, hrest, hparsed⟩ := readPages_records hread h
    rw [hrest, List.nil_append]
    exact hparsed

theorem everyOnce_iff_clean (hread : ReadsPages exchange respond environment record read)
    {start last n m : ℕ} {w w' : SignerWorld D}
    (h : (readAll read kind start last).run.eval respond environment n w =
      some (.ok batch, m, w')) :
    EveryOnce record batch.records (exchange.within start last) ↔ exchange.Clean start last := by
  have hparsed := parsedFrom_of_readAll hread h
  unfold PagedExchange.Clean
  rw [← paged_eq_iff exchange.positive (exchange.within_inOrder start last)]
  constructor
  · rintro ⟨order, hperm, horder⟩
    have hlength := hparsed.length_eq.symm.trans (horder.length_eq.trans hperm.length_eq)
    exact (paged_sublist (exchange.within start last)).eq_of_length hlength
  · intro hwhole
    exact ⟨_, .refl _, hwhole ▸ hparsed⟩

end

section

variable {D : Type} [Decimal D] [DecimalFromStr D] {thread : ℕ}
  {environment : ℕ → (op : SignerOp D) → op.Choice}

/-- **The pages of the fills and of the funding.**  Every record of the range is returned exactly
once if and only if no page of the range ends between two records of one millisecond. -/
theorem pagination_complete_iff {start last n m : ℕ} {w w' : SignerWorld D} :
    (∀ (exchange : PagedExchange UserFillWire UserFillWire.time),
      (∀ n cursor, environment n (.readFills cursor) =
        readFills cursor (exchange.answer cursor) (exchange.sourceHash cursor)) →
      ∀ batch : EventBatch (UserFill D), (readAllFills start last).run.eval
          (SignerWorld.respond thread) environment n w = some (.ok batch, m, w') →
        (EveryOnce UserFillWire.record batch.records (exchange.within start last) ↔
          exchange.Clean start last)) ∧
    ∀ (exchange : PagedExchange FundingWire FundingWire.time),
      (∀ n cursor, environment n (.readFunding cursor) =
        readFunding cursor (exchange.answer cursor) (exchange.sourceHash cursor)) →
      ∀ batch : EventBatch (FundingRecord D), (readAllFunding start last).run.eval
          (SignerWorld.respond thread) environment n w = some (.ok batch, m, w') →
        (EveryOnce FundingWire.record batch.records (exchange.within start last) ↔
          exchange.Clean start last) := by
  constructor
  · intro exchange henvironment batch h
    refine everyOnce_iff_clean (fun cursor n w => ?_) h
    change some (SignerAction.fromExchange (environment n (.readFills cursor)), n + 1, w) = _
    rw [henvironment]
    rfl
  · intro exchange henvironment batch h
    refine everyOnce_iff_clean (fun cursor n w => ?_) h
    change some (SignerAction.fromExchange (environment n (.readFunding cursor)), n + 1, w) = _
    rw [henvironment]
    rfl

end

instance : DecimalFromStr ℤ where
  fromStr text :=
    if text.toList.all Char.isDigit && !text.isEmpty then
      .ok (text.toList.foldl (fun value c => 10 * value + (c.toNat - 48)) 0)
    else .error "Invalid decimal: unknown character"

def listedFill (tid time : UInt64) : UserFillWire where
  closedPnl := "0"
  coin := "BTC"
  crossed := true
  oid := 1
  px := "100"
  side := "B"
  sz := "1"
  time
  fee := "0"
  feeToken := "USDC"
  tid
  cloid := some "0x00000000000000000000000000000001"

def sampleExchange (size : ℕ) (positive : 0 < size) : PagedExchange UserFillWire UserFillWire.time where
  account := [listedFill 1 5, listedFill 2 5]
  inOrder := by decide
  size
  positive
  sourceHash _ := Bytes.replicate 32 0

def sampleEnvironment (exchange : PagedExchange UserFillWire UserFillWire.time) :
    ℕ → (op : SignerOp ℤ) → op.Choice
  | _, .readFills cursor =>
    readFills cursor (exchange.answer cursor) (exchange.sourceHash cursor)
  | _, .persist | _, .saveLedger _ => .written
  | _, .sign _ _ => .error (.signing "")
  | _, .submitIoc _ => .error .unknownResult
  | _, .lookupOrder _ | _, .readFunding _ | _, .readPositions | _, .readEquity => .error .arithmetic
  | _, .acquire _ | _, .release _ | _, .readReady | _, .writeReady _ | _, .readRegistry
  | _, .callRegistry _ | _, .nextNonce _ | _, .panic => ()

def sampleWorld : SignerWorld ℤ where
  registry := SubmissionRegistry.empty 1
  registryFile := none
  ledgerFile := none
  startupReconciled := false
  nonceFloor := 0
  submissionHolder := none
  registryHolder := none
  submitted := []

def sampleRun (size : ℕ) (positive : 0 < size) :=
  (readAllFills 0 10).run.eval (SignerWorld.respond 0)
    (sampleEnvironment (sampleExchange size positive)) 0 sampleWorld

def returned (result : Option (Except SignerError (EventBatch (UserFill ℤ)) × ℕ × SignerWorld ℤ)) :
    Option ℕ :=
  match result with
  | some (.ok batch, _, _) => some batch.records.length
  | _ => none

theorem exists_of_returned (size : ℕ) (positive : 0 < size) (count : ℕ)
    (h : returned (sampleRun size positive) = some count) :
    ∃ batch m w', sampleRun size positive = some (.ok batch, m, w') ∧
      batch.records.length = count := by
  cases hrun : sampleRun size positive with
  | none =>
    rw [hrun] at h
    cases h
  | some result =>
    obtain ⟨value, m, w'⟩ := result
    rw [hrun] at h
    cases value with
    | error e => cases h
    | ok batch => exact ⟨batch, m, w', rfl, Option.some.inj h⟩

/-- Of two fills of one millisecond on pages of one record only the first is returned. -/
theorem pagination_loses_fill : ∃ (exchange : PagedExchange UserFillWire UserFillWire.time)
    (environment : ℕ → (op : SignerOp ℤ) → op.Choice) (batch : EventBatch (UserFill ℤ)) (m : ℕ)
    (w' : SignerWorld ℤ),
    (∀ n cursor, environment n (.readFills cursor) =
      readFills cursor (exchange.answer cursor) (exchange.sourceHash cursor)) ∧
    (readAllFills 0 10).run.eval (SignerWorld.respond 0) environment 0 sampleWorld =
      some (.ok batch, m, w') ∧
    ¬ EveryOnce UserFillWire.record batch.records (exchange.within 0 10) := by
  obtain ⟨batch, m, w', hrun, hcount⟩ :=
    exists_of_returned 1 (by decide) 1 (by decide +kernel)
  refine ⟨sampleExchange 1 (by decide), sampleEnvironment (sampleExchange 1 (by decide)), batch, m,
    w', fun _ _ => rfl, hrun, ?_⟩
  rintro ⟨order, hperm, hparsed⟩
  have hlength := hparsed.length_eq.trans hperm.length_eq
  rw [hcount] at hlength
  revert hlength
  decide

theorem pagination_complete_whole : ∃ (batch : EventBatch (UserFill ℤ)),
    EveryOnce UserFillWire.record batch.records
      ((sampleExchange 2 (by decide)).within 0 10) := by
  obtain ⟨batch, m, w', hrun, -⟩ :=
    exists_of_returned 2 (by decide) 2 (by decide +kernel)
  refine ⟨batch, ((pagination_complete_iff.1 (sampleExchange 2 (by decide)) (fun _ _ => rfl) batch
    hrun).mpr ?_)⟩
  intro k a b ha hb
  have hlog : (sampleExchange 2 (by decide)).within 0 10 = [listedFill 1 5, listedFill 2 5] := by
    decide
  rw [hlog, List.getElem?_eq_none (by
    change 2 ≤ (k + 1) * 2
    omega)] at hb
  cases hb

end CopyTrade.Analysis
