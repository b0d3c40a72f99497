import CopyTrade.Analysis.Replay.ObserverReplay
import CopyTrade.Model.Signer.Reconciliation
import CopyTrade.Model.Signer.RegistryCalls

/-!
# The observer's ledger follows the signer's

The signer registers and moves intents, applies batches and synchronises its outbox, in any order;
the observer replays the outbox.  Booking the waiting fills and then the waiting funding events on
the observer's ledger gives the signer's (`Follows`).  A fill that closes an episode with funding
still waiting breaks this, as does one with the source key of another and funding that the
observer's equity cannot bear.
-/

namespace CopyTrade.Analysis

open Foundation Model
open Std (ExtTreeSet)

variable {D : Type} [Decimal D]

/-- What the signer keeps of intents, exchange events and outbox events. -/
structure SignerBooks (D : Type) where
  registry : SubmissionRegistry D
  live : LiveTradingState D
  outbox : DurableReconciliationOutbox D

/-- A registry call, a call of `apply_authenticated_batches` or one of `sync_outbox`. -/
inductive BooksStep (D : Type)
  | registryCall (call : RegistryCall D)
  | applyBatches (fills : EventBatch (UserFill D)) (funding : EventBatch (FundingRecord D))
      (exchangeEquity : D)
  | syncOutbox

namespace SignerBooks

def step [Sha256] [PayloadEncoding D] (books : SignerBooks D) : BooksStep D → SignerBooks D
  | .registryCall call => { books with registry := books.registry.step call }
  | .applyBatches fills funding exchangeEquity =>
    match applyAuthenticatedBatches books.live books.registry fills funding exchangeEquity with
    | .ok (live, _) => { books with live }
    | .error _ => books
  | .syncOutbox =>
    match Model.syncOutbox books.registry books.live books.outbox with
    | .ok outbox => { books with outbox }
    | .error _ => books

def UpToDate [Sha256] [PayloadEncoding D] (books : SignerBooks D) : Prop :=
  Model.syncOutbox books.registry books.live books.outbox = .ok books.outbox

end SignerBooks

/-- The observer that starts from `start` accepts every event of the outbox, and where nothing
waits it ends with the signer's positions, closed episodes and settled equity. -/
def ReplayAgrees [Sha256] [PayloadEncoding D] (start : LiveTradingState D)
    (books : SignerBooks D) : Prop :=
  ∃ observer, replay (ProductionTradingState.new start) books.outbox.events = .ok observer ∧
    (books.UpToDate → observer.live.positions = books.live.positions ∧
      observer.live.ledger.portfolioClosed = books.live.ledger.portfolioClosed ∧
      observer.live.settledEquity = books.live.settledEquity)

def bookedAs (registry : SubmissionRegistry D) (exchangeEquity : D) (record : UserFill D) :
    Option (VerifiedExchangeFill D) :=
  (registry.intent (toHex record.cloid)).bind fun durable =>
    (verifiedFill record durable exchangeEquity).toOption

/-- The fill closes no episode that has funding waiting, and no other fill has its key. -/
def fillReplayable (outbox : DurableReconciliationOutbox D) (live : LiveTradingState D)
    (fill : VerifiedExchangeFill D) : Bool :=
  (!closesOn (booked live) fill || live.verifiedFunding.all fun event =>
    event.asset != fill.asset || outbox.sourceKeys.contains (fundingItem event).1) &&
  live.verifiedFills.all fun earlier => (fillItem earlier).1 != (fillItem fill).1

/-- Every fill of the events is replayable at the state it is applied to. -/
def eventsReplayable [Sha256] (registry : SubmissionRegistry D) (exchangeEquity : D)
    (outbox : DurableReconciliationOutbox D) :
    List (ExchangeEvent D) → LiveTradingState D × AppliedExchangeBatch D → Bool
  | [], _ => true
  | event :: rest, acc =>
    (match event with
      | .fill record => (bookedAs registry exchangeEquity record).all fun fill =>
        acc.1.appliedFills.contains fill.identity || fillReplayable outbox acc.1 fill
      | .funding _ => true) &&
    match applyExchangeEvent registry exchangeEquity acc event with
    | .ok next => eventsReplayable registry exchangeEquity outbox rest next
    | .error _ => true

/-- The equity that the payloads carry along: a fill sets it, a funding event moves it. -/
def carriedEquity (equity : D) : VerifiedReconciliationPayload D → Option D
  | .fill fill => some fill.exchangeEquityAfter
  | .funding event => fundedEquity equity event
  | _ => some equity

def waitingFills (books : SignerBooks D) : List (VerifiedExchangeFill D) :=
  books.live.verifiedFills.filter fun fill => !books.outbox.sourceKeys.contains (fillItem fill).1

def waitingFunding (books : SignerBooks D) : List (VerifiedFundingEvent D) :=
  books.live.verifiedFunding.filter fun event =>
    !books.outbox.sourceKeys.contains (fundingItem event).1

/-- The equity after the events of the outbox, the waiting fills and the waiting funding, if it
stays positive. -/
def syncedEquity (equity : D) (books : SignerBooks D) : Option D :=
  (books.outbox.events.map VerifiedReconciliationEvent.payload ++
    (waitingFills books).map VerifiedReconciliationPayload.fill ++
    (waitingFunding books).map VerifiedReconciliationPayload.funding).foldlM carriedEquity equity

def stepReplayable [Sha256] (equity : D) (books : SignerBooks D) : BooksStep D → Bool
  | .registryCall _ => true
  | .applyBatches fills funding exchangeEquity =>
    eventsReplayable books.registry exchangeEquity books.outbox (sortedEvents fills funding)
      (books.live, ⟨[], []⟩)
  | .syncOutbox => (syncedEquity equity books).isSome

/-- Every record is opened by a registration, and every entry has a record. -/
structure HistoryOpened (registry : SubmissionRegistry D) : Prop where
  opened : Opened registry.history
  recorded : ∀ (cloid : String) (entry : ApprovedExecutionIntent D × SubmissionState D),
    registry.byCloid[cloid]? = some entry → ∃ record ∈ registry.history, record.cloid = cloid

omit [Decimal D] in
theorem opened_concat {history : List (SubmissionTransitionRecord D)}
    {record : SubmissionTransitionRecord D} (h : Opened history)
    (hrecord : record.state = .authorized ∨ ∃ earlier ∈ history, earlier.cloid = record.cloid) :
    Opened (history ++ [record]) := by
  intro before current after hsplit
  rcases List.eq_nil_or_concat after with rfl | ⟨rest, last, rfl⟩
  · obtain ⟨rfl, hsame⟩ := List.append_inj' hsplit rfl
    rw [List.singleton_inj] at hsame
    rw [← hsame]
    exact hrecord
  · rw [List.concat_eq_append, ← List.cons_append, ← List.append_assoc] at hsplit
    obtain ⟨hhistory, -⟩ := List.append_inj' hsplit rfl
    exact h before current rest hhistory

theorem historyOpened_step {registry : SubmissionRegistry D} (h : HistoryOpened registry)
    (call : RegistryCall D) :
    HistoryOpened (registry.step call) ∧ registry.history <+: (registry.step call).history := by
  -- A record that is added stands for a registration or for an entry that has a record.
  have hadd : ∀ (cloid : String) (intent : ApprovedExecutionIntent D)
      (target : SubmissionState D) (recordedAtMs : ℕ) (next : SubmissionRegistry D),
      (target = .authorized ∨ ∃ entry, registry.byCloid[cloid]? = some entry) →
      next.byCloid = registry.byCloid.insert cloid (intent, target) →
      next.history = registry.pushRecord cloid target recordedAtMs →
      HistoryOpened next ∧ registry.history <+: next.history := by
    intro cloid intent target recordedAtMs next hcause hmap hhistory
    unfold SubmissionRegistry.pushRecord at hhistory
    rw [hhistory]
    refine ⟨⟨?_, ?_⟩, List.prefix_append _ _⟩
    · rw [hhistory]
      refine opened_concat h.opened (hcause.imp_right ?_)
      rintro ⟨entry, hget⟩
      exact h.recorded cloid entry hget
    · intro key entry hget
      rw [hhistory]
      rw [hmap, getElem?_insert_eq] at hget
      split at hget
      · rename_i hkey
        exact ⟨_, List.mem_append_right _ (List.mem_singleton_self _), hkey⟩
      · obtain ⟨record, hmem, hcloid⟩ := h.recorded key entry hget
        exact ⟨record, List.mem_append_left _ hmem, hcloid⟩
  rcases SubmissionRegistry.perform_cases registry call with ⟨e, -, hstep⟩ | hperformed
  · rw [hstep]
    exact ⟨h, List.prefix_rfl⟩
  generalize registry.step call = next at hperformed
  cases hperformed with
  | registered intent hvalid hfresh hopen hroom =>
    exact hadd intent.cloid intent .authorized 0 _ (.inl rfl) rfl rfl
  | repeated cloid target recordedAtMs intent current hget hsame => exact ⟨h, List.prefix_rfl⟩
  | moved cloid target recordedAtMs intent current hget happlies =>
    exact hadd cloid intent target recordedAtMs _ (.inr ⟨_, hget⟩) rfl rfl
  | counted cloid observedAtMs requiredConfirmations minimumIntervalMs intent current hget
      hunknown hmore => exact ⟨⟨h.opened, h.recorded⟩, List.prefix_rfl⟩
  | resolved cloid observedAtMs requiredConfirmations minimumIntervalMs intent current hget
      hunknown hresolves =>
    refine ⟨⟨h.opened, ?_⟩, List.prefix_rfl⟩
    intro key entry hkey
    rw [getElem?_insert_eq] at hkey
    split at hkey
    · rename_i hsame
      subst hsame
      exact h.recorded _ _ hget
    · exact h.recorded key entry hkey

/-- The records of the live state belong to the registry's, and no two share a source key. -/
structure RecordsKept (registry : SubmissionRegistry D) (live : LiveTradingState D) : Prop where
  registered : ∀ fill ∈ live.verifiedFills,
    ∃ record ∈ registry.history, record.cloid = toHex fill.identity.cloid
  fillKeys : (live.verifiedFills.map fun fill => (fillItem fill).1).Nodup
  fundingIds : live.appliedFunding = live.verifiedFunding.map VerifiedFundingEvent.eventId
  fundingNodup : (live.verifiedFunding.map VerifiedFundingEvent.eventId).Nodup

theorem fillBooked_records [Sha256] {b next : Booked D} {fill : VerifiedExchangeFill D}
    (h : fillBooked b fill = .ok next) :
    b.appliedFills.contains fill.identity = false ∧
      next.verifiedFills = b.verifiedFills ++ [fill] ∧
      next.verifiedFunding = b.verifiedFunding ∧ next.appliedFunding = b.appliedFunding := by
  unfold fillBooked at h
  obtain ⟨u, hvalid, h⟩ := of_bind h
  split at h
  · cases h
  rename_i hfresh
  obtain ⟨figures, hfigures, h⟩ := of_bind h
  obtain ⟨⟨books, closed⟩, hbook, h⟩ := of_bind h
  dsimp only at h
  split at h
  · cases h
  cases h
  exact ⟨by simpa using hfresh, rfl, rfl, rfl⟩

theorem fundBooked_records {b next : Booked D} {event : VerifiedFundingEvent D}
    (h : fundBooked b event = .ok next) :
    b.appliedFunding.contains event.eventId = false ∧
      next.verifiedFills = b.verifiedFills ∧
      next.verifiedFunding = b.verifiedFunding ++ [event] ∧
      next.appliedFunding = b.appliedFunding ++ [event.eventId] := by
  obtain ⟨hguard, episode, sum, hopen, hsum, rfl⟩ := fundBooked_eq_ok_iff.mp h
  rw [Bool.or_eq_false_iff] at hguard
  exact ⟨hguard.2, rfl, rfl, rfl⟩

theorem applyExchangeEvent_cases [Sha256] {registry : SubmissionRegistry D} {exchangeEquity : D}
    {acc next : LiveTradingState D × AppliedExchangeBatch D} {event : ExchangeEvent D}
    (h : applyExchangeEvent registry exchangeEquity acc event = .ok next) :
    next.1 = acc.1 ∨
      (∃ record fill, event = .fill record ∧
        bookedAs registry exchangeEquity record = some fill ∧
        (registry.intent (toHex fill.identity.cloid)).isSome = true ∧
        fillBooked (booked acc.1) fill = .ok (booked next.1)) ∨
      ∃ funding, fundBooked (booked acc.1) funding = .ok (booked next.1) := by
  cases event with
  | fill record =>
    unfold applyExchangeEvent at h
    cases hintent : registry.intent (toHex record.cloid) with
    | none =>
      simp only [hintent] at h
      cases h
    | some durable =>
      simp only [hintent] at h
      obtain ⟨fill, hfill, h⟩ := of_bind h
      obtain ⟨⟨result, live⟩, happly, h⟩ := of_bind h
      have happly' : applyExchangeFill acc.1 fill = .ok (result, live) := by
        unfold ledgerResult at happly
        split at happly
        · cases happly
        · cases happly
          assumption
      have hcloid : fill.identity.cloid = record.cloid := by
        unfold verifiedFill at hfill
        dsimp only at hfill
        generalize (if durable.isBuy = true then "B" else "A") = side at hfill
        split at hfill
        · cases hfill
        obtain ⟨decision, -, hfill⟩ := of_bind hfill
        obtain ⟨root, -, hfill⟩ := of_bind hfill
        obtain ⟨parent, -, hfill⟩ := of_bind hfill
        cases hfill
        rfl
      cases result with
      | alreadyApplied =>
        cases h
        exact .inl (applyExchangeFill_alreadyApplied happly')
      | applied accounting closed =>
        cases h
        refine .inr (.inl ⟨record, fill, rfl, ?_, ?_, (applyExchangeFill_applied happly').1⟩)
        · simp only [bookedAs, hintent, Option.bind_some, hfill, Except.toOption]
        · rw [hcloid, hintent]
          rfl
  | funding record =>
    obtain ⟨⟨result, live⟩, happly, h⟩ := of_bind h
    have happly' : applyFundingEvent acc.1 (verifiedFunding record) = .ok (result, live) := by
      unfold ledgerResult at happly
      split at happly
      · cases happly
      · cases happly
        assumption
    cases result with
    | alreadyApplied =>
      cases h
      exact .inl (applyFundingEvent_alreadyApplied happly')
    | applied accounting =>
      cases h
      exact .inr (.inr ⟨_, (applyFundingEvent_applied happly').1⟩)

/-- How far the observer is: `synced` parts of the history, the fills and the funding events
are replayed, and booking the waiting parts on its ledger gives the signer's. -/
structure Follows [Sha256] [PayloadEncoding D] (start : LiveTradingState D)
    (books : SignerBooks D) (syncedHistory : List (SubmissionTransitionRecord D))
    (syncedFills waitingFills : List (VerifiedExchangeFill D))
    (syncedFunding waitingFunding : List (VerifiedFundingEvent D))
    (observer : ProductionTradingState D) : Prop where
  history : syncedHistory <+: books.registry.history
  fills : books.live.verifiedFills = syncedFills ++ waitingFills
  funding : books.live.verifiedFunding = syncedFunding ++ waitingFunding
  keys : ∀ key, key ∈ books.outbox.sourceKeys ↔ key ∈ transitionKeys syncedHistory.zipIdx ∨
    key ∈ (syncedFills.map fillItem).map Prod.fst ∨
    key ∈ (syncedFunding.map fundingItem).map Prod.fst
  nextSequence : books.outbox.nextSequence = books.outbox.events.length + 1
  replayed : replay (ProductionTradingState.new start) books.outbox.events = .ok observer
  order : InOrder observer books.outbox.events.length
  knows : KnowsIntents observer syncedHistory
  ledgers : ∃ middle, waitingFills.foldlM fillBooked (booked observer.live) = .ok middle ∧
    waitingFunding.foldlM fundBooked middle = .ok (booked books.live)
  equity : (books.outbox.events.map VerifiedReconciliationEvent.payload).foldlM carriedEquity
    start.currentEquity = some observer.live.currentEquity

def Shadowed [Sha256] [PayloadEncoding D] (start : LiveTradingState D)
    (books : SignerBooks D) : Prop :=
  HistoryOpened books.registry ∧ RecordsKept books.registry books.live ∧
    ∃ syncedHistory syncedFills waitingFills syncedFunding waitingFunding observer,
      Follows start books syncedHistory syncedFills waitingFills syncedFunding waitingFunding
        observer

section

variable [Sha256] [PayloadEncoding D] {start : LiveTradingState D} {books : SignerBooks D}

theorem shadowed_registryCall (h : Shadowed start books) (call : RegistryCall D) :
    Shadowed start { books with registry := books.registry.step call } := by
  obtain ⟨hopened, hrecords, syncedHistory, syncedFills, waitingFills, syncedFunding,
    waitingFunding, observer, hfollows⟩ := h
  obtain ⟨hnext, hinitial⟩ := historyOpened_step hopened call
  refine ⟨hnext, ?_, syncedHistory, syncedFills, waitingFills, syncedFunding, waitingFunding,
    observer, { hfollows with history := hfollows.history.trans hinitial }⟩
  refine { hrecords with registered := ?_ }
  intro fill hfill
  obtain ⟨record, hmem, hcloid⟩ := hrecords.registered fill hfill
  exact ⟨record, hinitial.subset hmem, hcloid⟩

section

variable {syncedHistory : List (SubmissionTransitionRecord D)}
  {syncedFills waitingFills : List (VerifiedExchangeFill D)}
  {syncedFunding waitingFunding : List (VerifiedFundingEvent D)}
  {observer : ProductionTradingState D}

theorem Follows.new_transition_key
    (h : Follows start books syncedHistory syncedFills waitingFills syncedFunding waitingFunding
      observer) {index : ℕ} (hindex : syncedHistory.length ≤ index) :
    transitionKey (index + 1) ∉ books.outbox.sourceKeys := by
  rw [h.keys]
  rintro (hkey | hkey | hkey)
  · obtain ⟨earlier, -, hend, hkey⟩ := mem_transitionKeys hkey
    have := transitionKey_injective hkey
    omega
  · simp only [List.map_map, List.mem_map, Function.comp_apply] at hkey
    obtain ⟨fill, -, hkey⟩ := hkey
    exact transitionKey_ne_fill _ _ hkey.symm
  · simp only [List.map_map, List.mem_map, Function.comp_apply] at hkey
    obtain ⟨event, -, hkey⟩ := hkey
    exact transitionKey_ne_funding _ _ hkey.symm

theorem Follows.waiting_fill_key
    (h : Follows start books syncedHistory syncedFills waitingFills syncedFunding waitingFunding
      observer) (hrecords : RecordsKept books.registry books.live) {fill : VerifiedExchangeFill D}
    (hfill : fill ∈ waitingFills) : (fillItem fill).1 ∉ books.outbox.sourceKeys := by
  rw [h.keys]
  rintro (hkey | hkey | hkey)
  · obtain ⟨index, -, -, hkey⟩ := mem_transitionKeys hkey
    exact transitionKey_ne_fill _ _ hkey.symm
  · simp only [List.map_map, List.mem_map, Function.comp_apply] at hkey
    obtain ⟨earlier, hearlier, hkey⟩ := hkey
    have hnodup := hrecords.fillKeys
    rw [h.fills, List.map_append, List.nodup_append] at hnodup
    exact hnodup.2.2 _ (List.mem_map_of_mem hearlier) _ (List.mem_map_of_mem hfill) hkey
  · simp only [List.map_map, List.mem_map, Function.comp_apply] at hkey
    obtain ⟨event, -, hkey⟩ := hkey
    exact fillKey_ne_funding _ _ hkey.symm

theorem Follows.waiting_funding_key
    (h : Follows start books syncedHistory syncedFills waitingFills syncedFunding waitingFunding
      observer) (hrecords : RecordsKept books.registry books.live) {event : VerifiedFundingEvent D}
    (hevent : event ∈ waitingFunding) : (fundingItem event).1 ∉ books.outbox.sourceKeys := by
  rw [h.keys]
  rintro (hkey | hkey | hkey)
  · obtain ⟨index, -, -, hkey⟩ := mem_transitionKeys hkey
    exact transitionKey_ne_funding _ _ hkey.symm
  · simp only [List.map_map, List.mem_map, Function.comp_apply] at hkey
    obtain ⟨fill, -, hkey⟩ := hkey
    exact fillKey_ne_funding _ _ hkey
  · simp only [List.map_map, List.mem_map, Function.comp_apply] at hkey
    obtain ⟨earlier, hearlier, hkey⟩ := hkey
    have hnodup := hrecords.fundingNodup
    rw [h.funding, List.map_append, List.nodup_append] at hnodup
    exact hnodup.2.2 _ (List.mem_map_of_mem hearlier) _ (List.mem_map_of_mem hevent)
      (fundingKey_injective hkey)

end

theorem shadowed_fill [DecimalZeroLaws D] (h : Shadowed start books)
    {fill : VerifiedExchangeFill D} {live : LiveTradingState D}
    (hregistered : (books.registry.intent (toHex fill.identity.cloid)).isSome = true)
    (hfill : fillBooked (booked books.live) fill = .ok (booked live))
    (hsafe : fillReplayable books.outbox books.live fill = true) :
    Shadowed start { books with live } := by
  obtain ⟨hopened, hrecords, syncedHistory, syncedFills, waitingFills, syncedFunding,
    waitingFunding, observer, hfollows⟩ := h
  obtain ⟨hfresh, hfills, hfunding, happlied⟩ := fillBooked_records hfill
  replace hfills : live.verifiedFills = books.live.verifiedFills ++ [fill] := hfills
  replace hfunding : live.verifiedFunding = books.live.verifiedFunding := hfunding
  replace happlied : live.appliedFunding = books.live.appliedFunding := happlied
  unfold fillReplayable at hsafe
  rw [Bool.and_eq_true, Bool.or_eq_true, List.all_eq_true, List.all_eq_true] at hsafe
  obtain ⟨hcloses, hkey⟩ := hsafe
  refine ⟨hopened, ?_, syncedHistory, syncedFills, waitingFills ++ [fill], syncedFunding,
    waitingFunding, observer, ?_⟩
  · refine ⟨?_, ?_, by rw [happlied, hfunding]; exact hrecords.fundingIds,
      by rw [hfunding]; exact hrecords.fundingNodup⟩
    · intro other hother
      rw [hfills, List.mem_append, List.mem_singleton] at hother
      rcases hother with hother | rfl
      · exact hrecords.registered other hother
      · unfold SubmissionRegistry.intent at hregistered
        rw [Option.isSome_map, Option.isSome_iff_exists] at hregistered
        obtain ⟨entry, hentry⟩ := hregistered
        exact hopened.recorded _ entry hentry
    · rw [hfills, List.map_append, List.map_singleton]
      refine List.nodup_append.mpr ⟨hrecords.fillKeys, List.nodup_singleton _, ?_⟩
      intro a ha b hb
      obtain ⟨earlier, hearlier, rfl⟩ := List.mem_map.mp ha
      rw [List.mem_singleton] at hb
      subst hb
      simpa using hkey earlier hearlier
  · refine { hfollows with fills := ?_, funding := ?_, ledgers := ?_ }
    · rw [hfills, hfollows.fills, List.append_assoc]
    · rw [hfunding, hfollows.funding]
    · obtain ⟨middle, hmiddle, hwaiting⟩ := hfollows.ledgers
      have hkeeps : ∀ event ∈ waitingFunding, event.asset = fill.asset →
          closesOn (booked books.live) fill = false := by
        intro event hevent hasset
        rcases hcloses with hopen | hsynced
        · simpa using hopen
        · have hknown := hsynced event (by rw [hfollows.funding]; exact List.mem_append_right _ hevent)
          rw [hasset, bne_self_eq_false, Bool.false_or, ExtTreeSet.contains_iff_mem] at hknown
          exact absurd hknown (hfollows.waiting_funding_key hrecords hevent)
      obtain ⟨filled, hfilled, hfunded⟩ := fill_before_funding hwaiting hfill hkeeps
      exact ⟨filled, foldlM_snoc_eq_ok_iff.mpr ⟨middle, hmiddle, hfilled⟩, hfunded⟩

theorem shadowed_funding (h : Shadowed start books) {event : VerifiedFundingEvent D}
    {live : LiveTradingState D}
    (hfund : fundBooked (booked books.live) event = .ok (booked live)) :
    Shadowed start { books with live } := by
  obtain ⟨hopened, hrecords, syncedHistory, syncedFills, waitingFills, syncedFunding,
    waitingFunding, observer, hfollows⟩ := h
  obtain ⟨hfresh, hfills, hfunding, happlied⟩ := fundBooked_records hfund
  replace hfills : live.verifiedFills = books.live.verifiedFills := hfills
  replace hfunding : live.verifiedFunding = books.live.verifiedFunding ++ [event] := hfunding
  replace happlied : live.appliedFunding = books.live.appliedFunding ++ [event.eventId] := happlied
  refine ⟨hopened, ?_, syncedHistory, syncedFills, waitingFills, syncedFunding,
    waitingFunding ++ [event], observer, ?_⟩
  · refine ⟨by rw [hfills]; exact hrecords.registered, by rw [hfills]; exact hrecords.fillKeys,
      ?_, ?_⟩
    · rw [happlied, hfunding, hrecords.fundingIds, List.map_append, List.map_singleton]
    · rw [hfunding, List.map_append, List.map_singleton]
      refine List.nodup_append.mpr ⟨hrecords.fundingNodup, List.nodup_singleton _, ?_⟩
      intro a ha b hb hsame
      rw [List.mem_singleton] at hb
      subst hb
      subst hsame
      have hcontains : (booked books.live).appliedFunding.contains event.eventId = true := by
        rw [List.contains_iff_mem]
        change event.eventId ∈ books.live.appliedFunding
        rw [hrecords.fundingIds]
        exact ha
      rw [hcontains] at hfresh
      cases hfresh
  · refine { hfollows with fills := ?_, funding := ?_, ledgers := ?_ }
    · rw [hfills, hfollows.fills]
    · rw [hfunding, hfollows.funding, List.append_assoc]
    · obtain ⟨middle, hmiddle, hwaiting⟩ := hfollows.ledgers
      exact ⟨middle, hmiddle, foldlM_snoc_eq_ok_iff.mpr ⟨_, hwaiting, hfund⟩⟩

theorem shadowed_congr (h : Shadowed start books) {live : LiveTradingState D}
    (hbooked : booked live = booked books.live) : Shadowed start { books with live } := by
  obtain ⟨hopened, hrecords, syncedHistory, syncedFills, waitingFills, syncedFunding,
    waitingFunding, observer, hfollows⟩ := h
  have hfills : live.verifiedFills = books.live.verifiedFills :=
    congrArg Booked.verifiedFills hbooked
  have hfunding : live.verifiedFunding = books.live.verifiedFunding :=
    congrArg Booked.verifiedFunding hbooked
  have happlied : live.appliedFunding = books.live.appliedFunding :=
    congrArg Booked.appliedFunding hbooked
  refine ⟨hopened, ?_, syncedHistory, syncedFills, waitingFills, syncedFunding, waitingFunding,
    observer, ?_⟩
  · exact ⟨by rw [hfills]; exact hrecords.registered, by rw [hfills]; exact hrecords.fillKeys,
      by rw [happlied, hfunding]; exact hrecords.fundingIds,
      by rw [hfunding]; exact hrecords.fundingNodup⟩
  · refine { hfollows with fills := ?_, funding := ?_, ledgers := ?_ }
    · rw [hfills, hfollows.fills]
    · rw [hfunding, hfollows.funding]
    · rw [hbooked]
      exact hfollows.ledgers

theorem shadowed_events [DecimalZeroLaws D] {exchangeEquity : D} {events : List (ExchangeEvent D)}
    {acc next : LiveTradingState D × AppliedExchangeBatch D}
    (h : Shadowed start { books with live := acc.1 })
    (hsafe : eventsReplayable books.registry exchangeEquity books.outbox events acc = true)
    (hevents : events.foldlM (applyExchangeEvent books.registry exchangeEquity) acc = .ok next) :
    Shadowed start { books with live := next.1 } := by
  induction events generalizing acc with
  | nil =>
    rw [List.foldlM_nil, pure_eq_ok_iff] at hevents
    subst hevents
    exact h
  | cons event events ih =>
    obtain ⟨middle, hmiddle, hrest⟩ := foldlM_cons_eq_ok_iff.mp hevents
    unfold eventsReplayable at hsafe
    rw [Bool.and_eq_true, hmiddle] at hsafe
    obtain ⟨hevent, hsafeRest⟩ := hsafe
    refine ih ?_ hsafeRest hrest
    rcases applyExchangeEvent_cases hmiddle with
      hsame | ⟨record, fill, rfl, hbookedAs, hregistered, hfill⟩ | ⟨funding, hfund⟩
    · rw [hsame]
      exact h
    · have hfresh := (fillBooked_records hfill).1
      change acc.1.appliedFills.contains fill.identity = false at hfresh
      simp only [hbookedAs, Option.all_some, hfresh, Bool.false_or] at hevent
      exact shadowed_fill h hregistered hfill hevent
    · exact shadowed_funding h hfund

omit [PayloadEncoding D] in
theorem applyAuthenticatedBatches_eq_ok {fills : EventBatch (UserFill D)}
    {funding : EventBatch (FundingRecord D)} {registry : SubmissionRegistry D}
    {live next : LiveTradingState D} {exchangeEquity : D} {batch : AppliedExchangeBatch D}
    (h : applyAuthenticatedBatches live registry fills funding exchangeEquity =
      .ok (next, batch)) :
    ∃ applied, (sortedEvents fills funding).foldlM (applyExchangeEvent registry exchangeEquity)
        (live, ⟨[], []⟩) = .ok (applied, batch) ∧ booked next = booked applied := by
  unfold applyAuthenticatedBatches at h
  dsimp only at h
  split at h
  · cases h
  obtain ⟨⟨applied, collected⟩, hevents, h⟩ := of_bind h
  obtain ⟨filled, hfilled, h⟩ := of_bind h
  obtain ⟨funded, hfunded, h⟩ := of_bind h
  obtain ⟨reconciled, hreconciled, h⟩ := of_bind h
  cases h
  refine ⟨applied, hevents, ?_⟩
  have hadvance : booked filled = booked applied := by
    unfold LiveTradingState.advanceFillCursor at hfilled
    split at hfilled <;> cases hfilled
    rfl
  have hadvance' : booked funded = booked filled := by
    unfold LiveTradingState.advanceFundingCursor at hfunded
    split at hfunded <;> cases hfunded
    rfl
  have hequity : booked next = booked funded := by
    unfold LiveTradingState.reconcileEquity at hreconciled
    split at hreconciled <;> cases hreconciled
    rfl
  rw [hequity, hadvance', hadvance]

/-- What a synchronisation appends: the events of the new transitions, of the waiting fills and
of the waiting funding. -/
theorem Follows.sync {syncedHistory : List (SubmissionTransitionRecord D)}
    {syncedFills waitingFills : List (VerifiedExchangeFill D)}
    {syncedFunding waitingFunding : List (VerifiedFundingEvent D)}
    {observer : ProductionTradingState D} {next : DurableReconciliationOutbox D}
    (h : Follows start books syncedHistory syncedFills waitingFills syncedFunding waitingFunding
      observer) (hrecords : RecordsKept books.registry books.live)
    (hsync : syncOutbox books.registry books.live books.outbox = .ok next) :
    ∃ newHistory items transitioned filled transitionEvents fillEvents fundingEvents,
      books.registry.history = syncedHistory ++ newHistory ∧
        transitionItems books.registry (newHistory.zipIdx syncedHistory.length) = .ok items ∧
        Appended books.outbox items transitionEvents transitioned ∧
        Appended transitioned (waitingFills.map fillItem) fillEvents filled ∧
        Appended filled (waitingFunding.map fundingItem) fundingEvents next := by
  obtain ⟨newHistory, hhistory⟩ := h.history
  unfold syncOutbox at hsync
  obtain ⟨transitioned, htransitions, hsync⟩ := of_bind hsync
  obtain ⟨filled, hfills, hfunding⟩ := of_bind hsync
  obtain ⟨all, hall, htransitions⟩ := syncTransitions_eq_ok htransitions
  rw [← hhistory, List.zipIdx_append, Nat.zero_add, transitionItems_append] at hall
  obtain ⟨old, items, hold, hitems, rfl⟩ := hall
  rw [h.fills, List.map_append] at hfills
  rw [h.funding, List.map_append] at hfunding
  have hitemKeys := transitionItems_keys hitems
  -- No key of the new transitions is the key of a fill or of a funding event.
  have hdistinct : ∀ key ∈ items.map Prod.fst, ∃ index, syncedHistory.length ≤ index ∧
      key = transitionKey (index + 1) := by
    intro key hkey
    rw [hitemKeys] at hkey
    obtain ⟨index, hstart, -, hkey⟩ := mem_transitionKeys hkey
    exact ⟨index, hstart, hkey⟩
  obtain ⟨transitionEvents, htransitioned⟩ : ∃ events,
      Appended books.outbox items events transitioned := by
    refine appendItems_new ?_ ?_ ?_ htransitions
    · intro key hkey
      rw [h.keys, ← transitionItems_keys hold]
      exact .inl hkey
    · intro key hkey
      obtain ⟨index, hindex, rfl⟩ := hdistinct key hkey
      exact h.new_transition_key hindex
    · rw [hitemKeys]
      exact nodup_transitionKeys _ _
  obtain ⟨fillEvents, hfilled⟩ : ∃ events,
      Appended transitioned (waitingFills.map fillItem) events filled := by
    refine appendItems_new ?_ ?_ ?_ hfills
    · intro key hkey
      rw [htransitioned.keys, h.keys]
      exact .inl (.inr (.inl hkey))
    · intro key hkey hmem
      simp only [List.map_map, List.mem_map, Function.comp_apply] at hkey
      obtain ⟨fill, hfill, rfl⟩ := hkey
      rcases (htransitioned.keys _).mp hmem with hmem | hmem
      · exact h.waiting_fill_key hrecords hfill hmem
      · obtain ⟨index, -, hsame⟩ := hdistinct _ hmem
        exact transitionKey_ne_fill _ _ hsame.symm
    · have hnodup := hrecords.fillKeys
      rw [h.fills, List.map_append, List.nodup_append] at hnodup
      rw [List.map_map]
      exact hnodup.2.1
  obtain ⟨fundingEvents, hfunded⟩ : ∃ events,
      Appended filled (waitingFunding.map fundingItem) events next := by
    refine appendItems_new ?_ ?_ ?_ hfunding
    · intro key hkey
      rw [hfilled.keys, htransitioned.keys, h.keys]
      exact .inl (.inl (.inr (.inr hkey)))
    · intro key hkey hmem
      simp only [List.map_map, List.mem_map, Function.comp_apply] at hkey
      obtain ⟨event, hevent, rfl⟩ := hkey
      rcases (hfilled.keys _).mp hmem with hmem | hmem
      · rcases (htransitioned.keys _).mp hmem with hmem | hmem
        · exact h.waiting_funding_key hrecords hevent hmem
        · obtain ⟨index, -, hsame⟩ := hdistinct _ hmem
          exact transitionKey_ne_funding _ _ hsame.symm
      · simp only [List.map_map, List.mem_map, Function.comp_apply] at hmem
        obtain ⟨fill, -, hsame⟩ := hmem
        exact fillKey_ne_funding _ _ hsame
    · have hnodup := hrecords.fundingNodup
      rw [h.funding, List.map_append, List.nodup_append] at hnodup
      have hids := hnodup.2.1
      rw [List.map_map]
      refine hids.of_map.map_on ?_
      intro x hx y hy hsame
      exact List.inj_on_of_nodup_map hids hx hy (fundingKey_injective hsame)
  exact ⟨newHistory, items, transitioned, filled, transitionEvents, fillEvents, fundingEvents,
    hhistory.symm, hitems, htransitioned, hfilled, hfunded⟩

section

omit [Sha256] [PayloadEncoding D]

theorem carriedEquity_transitions {registry : SubmissionRegistry D}
    {records : List (SubmissionTransitionRecord D × ℕ)} {items : List (OutboxItem D)}
    (h : transitionItems registry records = .ok items) (equity : D) :
    (items.map Prod.snd).foldlM carriedEquity equity = some equity := by
  induction records generalizing items with
  | nil =>
    cases h
    rfl
  | cons record records ih =>
    obtain ⟨record, index⟩ := record
    obtain ⟨item, hitem, htail⟩ := of_bind h
    obtain ⟨rest, hrest, hjoin⟩ := of_bind htail
    rw [pure_eq_ok_iff] at hjoin
    subst hjoin
    obtain ⟨cloid, hcloid, hbind⟩ := of_bind hitem
    obtain ⟨payload, hpayload, hpure⟩ := of_bind hbind
    rw [pure_eq_ok_iff] at hpure
    subst hpure
    cases payload with
    | none => exact ih hrest
    | some payload =>
      have hcarried : carriedEquity equity payload = some equity := by
        cases hstate : record.state with
        | authorized =>
          rw [hstate] at hpayload
          obtain ⟨identity, hidentity, hpayload⟩ := of_bind hpayload
          cases hpayload
          rfl
        | nonceAllocated nonce | signed nonce =>
          rw [hstate] at hpayload
          cases hpayload
        | _ =>
          rw [hstate] at hpayload
          cases hpayload
          rfl
      have htail : (rest.map Prod.snd).foldlM carriedEquity equity = some equity := ih hrest
      simp only [Option.map_some, Option.toList_some, List.singleton_append, List.map_cons,
        List.foldlM_cons, hcarried, Option.bind_eq_bind, Option.bind_some, htail]

theorem carriedEquity_fills (fills : List (VerifiedExchangeFill D)) (equity : D) :
    (fills.map VerifiedReconciliationPayload.fill).foldlM carriedEquity equity =
      some (equityAfterFills equity fills) := by
  induction fills generalizing equity with
  | nil => rfl
  | cons fill fills ih => exact ih fill.exchangeEquityAfter

theorem carriedEquity_funding (funding : List (VerifiedFundingEvent D)) (equity : D) :
    (funding.map VerifiedReconciliationPayload.funding).foldlM carriedEquity equity =
      funding.foldlM fundedEquity equity := by
  rw [List.foldlM_map]
  rfl

end

theorem Follows.waiting_eq {syncedHistory : List (SubmissionTransitionRecord D)}
    {syncedFills fills : List (VerifiedExchangeFill D)}
    {syncedFunding funding : List (VerifiedFundingEvent D)}
    {observer : ProductionTradingState D}
    (h : Follows start books syncedHistory syncedFills fills syncedFunding funding observer)
    (hrecords : RecordsKept books.registry books.live) :
    waitingFills books = fills ∧ waitingFunding books = funding := by
  constructor
  · unfold waitingFills
    rw [h.fills, List.filter_append, List.filter_eq_nil_iff.mpr, List.nil_append,
      List.filter_eq_self.mpr]
    · intro fill hfill
      have hkey := h.waiting_fill_key hrecords hfill
      rw [← ExtTreeSet.contains_iff_mem, Bool.not_eq_true] at hkey
      rw [hkey, Bool.not_false]
    · intro fill hfill
      have hkey : (fillItem fill).1 ∈ books.outbox.sourceKeys :=
        (h.keys _).mpr (.inr (.inl (List.mem_map_of_mem (List.mem_map_of_mem hfill))))
      rw [← ExtTreeSet.contains_iff_mem] at hkey
      simp [hkey]
  · unfold waitingFunding
    rw [h.funding, List.filter_append, List.filter_eq_nil_iff.mpr, List.nil_append,
      List.filter_eq_self.mpr]
    · intro event hevent
      have hkey := h.waiting_funding_key hrecords hevent
      rw [← ExtTreeSet.contains_iff_mem, Bool.not_eq_true] at hkey
      rw [hkey, Bool.not_false]
    · intro event hevent
      have hkey : (fundingItem event).1 ∈ books.outbox.sourceKeys :=
        (h.keys _).mpr (.inr (.inr (List.mem_map_of_mem (List.mem_map_of_mem hevent))))
      rw [← ExtTreeSet.contains_iff_mem] at hkey
      simp [hkey]

theorem shadowed_sync (h : Shadowed start books) {next : DurableReconciliationOutbox D}
    (hequity : (syncedEquity start.currentEquity books).isSome = true)
    (hsync : syncOutbox books.registry books.live books.outbox = .ok next) :
    Shadowed start { books with outbox := next } := by
  obtain ⟨hopened, hrecords, syncedHistory, syncedFills, fills, syncedFunding, funding, observer,
    hfollows⟩ := h
  obtain ⟨newHistory, items, transitioned, filled, transitionEvents, fillEvents, fundingEvents,
    hhistory, hitems, htransitioned, hfilled, hfunded⟩ := hfollows.sync hrecords hsync
  obtain ⟨hwaitingFills, hwaitingFunding⟩ := hfollows.waiting_eq hrecords
  obtain ⟨middle, hmiddle, hlive⟩ := hfollows.ledgers
  have hcount (outbox next : DurableReconciliationOutbox D) (items events)
      (h : Appended outbox items events next) : events.length = items.length := by
    have := congrArg List.length h.payloads
    simpa only [List.length_map] using this
  have htransitionCount := hcount _ _ _ _ htransitioned
  have hfillCount := hcount _ _ _ _ hfilled
  have hfundingCount := hcount _ _ _ _ hfunded
  have htransitionedNext := htransitioned.nextSequence
  have hfilledNext := hfilled.nextSequence
  have hfundedNext := hfunded.nextSequence
  have hstartNext := hfollows.nextSequence
  have hevents : next.events =
      books.outbox.events ++ (transitionEvents ++ (fillEvents ++ fundingEvents)) := by
    rw [hfunded.events_eq, hfilled.events_eq, htransitioned.events_eq, List.append_assoc,
      List.append_assoc]
  -- The observer replays the transitions.
  have hsealed := htransitioned.sealed
  rw [hstartNext] at hsealed
  have hfirst := hopened.opened
  rw [hhistory] at hfirst
  obtain ⟨known, hknown, hknownOrder, hknownLive, hknowns⟩ :=
    replay_transitions hitems htransitioned.payloads hsealed hfirst hfollows.order hfollows.knows
  -- Then the waiting fills.
  have hsealed := hfilled.sealed
  rw [htransitionedNext, hstartNext, ← htransitionCount,
    show ∀ n k : ℕ, n + 1 + k = n + k + 1 by omega] at hsealed
  have hfillPayloads : fillEvents.map VerifiedReconciliationEvent.payload =
      fills.map VerifiedReconciliationPayload.fill := by
    rw [hfilled.payloads, List.map_map]
    rfl
  have hregistered : ∀ fill ∈ fills, fill.identity.cloid ∈ known.intents := by
    intro fill hfill
    obtain ⟨record, hrecord, hcloid⟩ := hrecords.registered fill (by
      rw [hfollows.fills]
      exact List.mem_append_right _ hfill)
    rw [hhistory] at hrecord
    refine hknowns record hrecord fill.identity.cloid ?_
    rw [hcloid, parseCloid, decodePlannedCloid_toHex]
  obtain ⟨bookedFills, hreplayFills, hfillsOrder, hfillsLive, hfillsEquity, hfillsIntents⟩ :=
    replay_fills hfillPayloads hsealed hknownOrder hregistered (by rw [hknownLive]; exact hmiddle)
  -- Then the waiting funding events.
  have hsealed := hfunded.sealed
  rw [hfilledNext, htransitionedNext, hstartNext, ← htransitionCount, ← hfillCount,
    show ∀ n k l : ℕ, n + 1 + k + l = n + k + l + 1 by omega] at hsealed
  have hfundingPayloads : fundingEvents.map VerifiedReconciliationEvent.payload =
      funding.map VerifiedReconciliationPayload.funding := by
    rw [hfunded.payloads, List.map_map]
    rfl
  have hlast : ∃ equity, funding.foldlM fundedEquity bookedFills.live.currentEquity =
      some equity := by
    unfold syncedEquity at hequity
    rw [hwaitingFills, hwaitingFunding, List.foldlM_append, List.foldlM_append,
      hfollows.equity] at hequity
    simp only [Option.bind_eq_bind, Option.bind_some, carriedEquity_fills,
      carriedEquity_funding] at hequity
    rw [hfillsEquity, hknownLive]
    exact Option.isSome_iff_exists.mp hequity
  obtain ⟨equity, hlast⟩ := hlast
  obtain ⟨after, hreplayFunding, hafterOrder, hafterLive, hafterEquity, hafterIntents⟩ :=
    replay_funding hfundingPayloads hsealed hfillsOrder (by rw [hfillsLive]; exact hlive) hlast
  refine ⟨hopened, hrecords, books.registry.history, books.live.verifiedFills, [],
    books.live.verifiedFunding, [], after, ?_⟩
  refine ⟨List.prefix_rfl, (List.append_nil _).symm, (List.append_nil _).symm, ?_, ?_, ?_, ?_, ?_,
    ⟨_, rfl, ?_⟩, ?_⟩
  · intro key
    rw [hfunded.keys, hfilled.keys, htransitioned.keys, hfollows.keys, hhistory,
      transitionKeys_append, transitionItems_keys hitems, hfollows.fills, hfollows.funding]
    simp only [List.map_append, List.mem_append]
    tauto
  · rw [hfundedNext, hfilledNext, htransitionedNext, hstartNext, hevents]
    simp only [List.length_append]
    omega
  · rw [hevents]
    refine foldlM_append_eq_ok_iff.mpr ⟨observer, hfollows.replayed, ?_⟩
    refine foldlM_append_eq_ok_iff.mpr ⟨known, hknown, ?_⟩
    exact foldlM_append_eq_ok_iff.mpr ⟨bookedFills, hreplayFills, hreplayFunding⟩
  · have hlength : next.events.length = books.outbox.events.length + transitionEvents.length +
        fillEvents.length + fundingEvents.length := by
      rw [hevents]
      simp only [List.length_append]
      omega
    rw [hlength]
    exact hafterOrder
  · intro record hrecord cloid hcloid
    rw [hhistory] at hrecord
    exact hafterIntents _ (hfillsIntents _ (hknowns record hrecord cloid hcloid))
  · rw [hafterLive]
    rfl
  · rw [hevents]
    rw [hknownLive] at hfillsEquity
    simp only [List.map_append, List.foldlM_append, hfollows.equity, htransitioned.payloads,
      carriedEquity_transitions hitems, hfillPayloads, hfundingPayloads, Option.bind_eq_bind,
      Option.bind_some, carriedEquity_fills, carriedEquity_funding, ← hfillsEquity, hlast,
      hafterEquity]

theorem shadowed_step [DecimalZeroLaws D] (h : Shadowed start books) (step : BooksStep D)
    (hsafe : stepReplayable start.currentEquity books step = true) :
    Shadowed start (books.step step) := by
  cases step with
  | registryCall call => exact shadowed_registryCall h call
  | applyBatches fills funding exchangeEquity =>
    unfold SignerBooks.step
    dsimp only
    split
    · rename_i live batch happly
      obtain ⟨applied, hevents, hbooked⟩ := applyAuthenticatedBatches_eq_ok happly
      have happlied : Shadowed start { books with live := applied } :=
        shadowed_events h hsafe hevents
      exact shadowed_congr happlied hbooked
    · exact h
  | syncOutbox =>
    unfold SignerBooks.step
    dsimp only
    split
    · rename_i outbox hsync
      exact shadowed_sync h hsafe hsync
    · exact h

theorem replayAgrees_of_shadowed (h : Shadowed start books) : ReplayAgrees start books := by
  obtain ⟨hopened, hrecords, syncedHistory, syncedFills, fills, syncedFunding, funding, observer,
    hfollows⟩ := h
  refine ⟨observer, hfollows.replayed, ?_⟩
  intro hupToDate
  obtain ⟨newHistory, items, transitioned, filled, transitionEvents, fillEvents, fundingEvents,
    hhistory, hitems, htransitioned, hfilled, hfunded⟩ := hfollows.sync hrecords hupToDate
  have hsum : books.outbox.nextSequence = books.outbox.nextSequence + items.length +
      fills.length + funding.length := by
    have hnext := hfunded.nextSequence
    rw [hfilled.nextSequence, htransitioned.nextSequence, List.length_map, List.length_map] at hnext
    exact hnext
  have hfills : fills = [] := List.eq_nil_of_length_eq_zero (by omega)
  have hfunding : funding = [] := List.eq_nil_of_length_eq_zero (by omega)
  subst hfills
  subst hfunding
  obtain ⟨middle, hmiddle, hlive⟩ := hfollows.ledgers
  rw [List.foldlM_nil, pure_eq_ok_iff] at hmiddle hlive
  subst hmiddle
  have hbooks : observer.live.books = books.live.books := congrArg Booked.books hlive
  have hledger : observer.live.ledger = books.live.ledger := congrArg FillBooks.ledger hbooks
  refine ⟨?_, ?_, congrArg FillBooks.settledEquity hbooks⟩
  · unfold LiveTradingState.positions
    rw [hledger]
  · rw [hledger]

end

section

variable [Sha256] [PayloadEncoding D]

/-- The books at the start: nothing is registered, applied or synchronised. -/
def startBooks (maximumEntries : ℕ) (live : LiveTradingState D)
    (outbox : DurableReconciliationOutbox D) : SignerBooks D :=
  ⟨SubmissionRegistry.empty maximumEntries, live, outbox⟩

theorem shadowed_start {equity : D} {cursor maximumEntries maximumEvents : ℕ} {instanceId : Bytes 16}
    {live : LiveTradingState D} {outbox : DurableReconciliationOutbox D}
    (hlive : LiveTradingState.new equity cursor = .ok live)
    (houtbox : DurableReconciliationOutbox.new instanceId maximumEvents = .ok outbox) :
    Shadowed live (startBooks maximumEntries live outbox) := by
  obtain ⟨hfills, hfunding, happlied⟩ :
      live.verifiedFills = [] ∧ live.verifiedFunding = [] ∧ live.appliedFunding = [] := by
    unfold LiveTradingState.new at hlive
    split at hlive <;> cases hlive
    exact ⟨rfl, rfl, rfl⟩
  unfold DurableReconciliationOutbox.new at houtbox
  split at houtbox <;> cases houtbox
  refine ⟨⟨?_, ?_⟩, ⟨?_, ?_, ?_, ?_⟩, [], [], [], [], [], ProductionTradingState.new live, ?_⟩
  · intro before record after hsplit
    cases before <;> cases hsplit
  · intro cloid entry hget
    simp [startBooks, SubmissionRegistry.empty] at hget
  · intro fill hfill
    rw [startBooks, hfills] at hfill
    cases hfill
  · rw [startBooks, hfills]
    exact List.nodup_nil
  · rw [startBooks, happlied, hfunding]
    rfl
  · rw [startBooks, hfunding]
    exact List.nodup_nil
  · refine ⟨List.prefix_rfl, hfills, hfunding, ?_, rfl, rfl, inOrder_new _, ?_, ⟨_, rfl, rfl⟩, rfl⟩
    · intro key
      simp [startBooks, DurableReconciliationOutbox.empty, transitionKeys]
    · intro record hrecord
      cases hrecord

/-- **The ledgers agree.**  In a run whose steps are all replayable the observer accepts every
event of the outbox in every state, and has the signer's ledger wherever nothing waits. -/
theorem replay_agrees [DecimalZeroLaws D] {equity : D}
    {cursor maximumEntries maximumEvents : ℕ} {instanceId : Bytes 16}
    {live : LiveTradingState D} {outbox : DurableReconciliationOutbox D}
    (hlive : LiveTradingState.new equity cursor = .ok live)
    (houtbox : DurableReconciliationOutbox.new instanceId maximumEvents = .ok outbox)
    {steps : List (BooksStep D)}
    (hsafe : AllSteps SignerBooks.step
      (fun books step => stepReplayable live.currentEquity books step = true)
      (startBooks maximumEntries live outbox) steps) :
    ∀ books ∈ states SignerBooks.step (startBooks maximumEntries live outbox) steps,
      ReplayAgrees live books := by
  intro books hbooks
  refine replayAgrees_of_shadowed ?_
  exact forall_states_of_steps (I := Shadowed live) (fun _ step h hstep => shadowed_step h step hstep)
    (shadowed_start hlive houtbox) hsafe books hbooks

end

def samplePayloadBytes : VerifiedReconciliationPayload ℚ → Except String (List UInt8)
  | .fill fill => .ok (1 :: fill.identity.cloid.1)
  | .funding event => .ok (2 :: event.eventId.1)
  | _ => .ok [0]

def sampleFill (cloid : UInt8) (trade side : String) (occurredAtMs : ℕ) : UserFill ℚ where
  cloid := Bytes.replicate 16 cloid
  exchangeOrderId := "7"
  tradeId := trade
  asset := "BTC"
  side := side
  price := 100
  quantity := 1
  closedPnl := 0
  fee := 0
  feeToken := "USDC"
  crossed := true
  occurredAtMs := occurredAtMs
  sourceHash := Bytes.replicate 32 0

def sampleFunding (occurredAtMs : ℕ) : FundingRecord ℚ where
  eventHash := "hourly"
  asset := "BTC"
  signedUsdcDelta := -1
  occurredAtMs := occurredAtMs
  sourceHash := Bytes.replicate 32 0

def sampleBatch (fills : List (UserFill ℚ)) (funding : List (FundingRecord ℚ)) : BooksStep ℚ :=
  .applyBatches ⟨fills, ⟨100, none⟩⟩ ⟨funding, ⟨100, none⟩⟩ 1000

def sampleRegistrations : List (BooksStep ℚ) :=
  [.registryCall (.register (sampleIntent (sampleCloid 1) "BTC" false)),
    .registryCall (.register { sampleIntent (sampleCloid 2) "BTC" true with isBuy := false })]

def sampleStart : SignerBooks ℚ :=
  startBooks 4 (LiveTradingState.starting 1000 0)
    (DurableReconciliationOutbox.empty (Bytes.replicate 16 1) 100)

def closedBeforeSync : List (BooksStep ℚ) :=
  sampleRegistrations ++
    [sampleBatch [sampleFill 1 "1" "B" 10, sampleFill 2 "2" "A" 20] [sampleFunding 15],
      .syncOutbox]

/-- The entry and the funding payment are synchronised before the exit is applied. -/
def closedAfterSync : List (BooksStep ℚ) :=
  sampleRegistrations ++
    [sampleBatch [sampleFill 1 "1" "B" 10] [sampleFunding 15], .syncOutbox,
      sampleBatch [sampleFill 2 "2" "A" 20] [], .syncOutbox]

theorem replay_agrees_closedAfterSync :
    ∃ (_ : Sha256) (_ : PayloadEncoding ℚ),
      ∀ books ∈ states SignerBooks.step sampleStart closedAfterSync,
        ReplayAgrees (LiveTradingState.starting 1000 0) books := by
  let sha : Sha256 := ⟨prefixDigest⟩
  let encoding : PayloadEncoding ℚ := ⟨samplePayloadBytes⟩
  refine ⟨sha, encoding, ?_⟩
  have hlive : LiveTradingState.new (1000 : ℚ) 0 = .ok (LiveTradingState.starting 1000 0) := by
    decide +kernel
  have houtbox : DurableReconciliationOutbox.new (D := ℚ) (Bytes.replicate 16 1) 100 =
      .ok (DurableReconciliationOutbox.empty (Bytes.replicate 16 1) 100) := rfl
  exact replay_agrees hlive houtbox (by decide +kernel)

/-- A funding payment that waits when its episode is closed comes after the closing fill in
the outbox, and the observer has no episode left to book it on. -/
theorem waiting_funding_refused :
    ¬ ∀ [Sha256] [PayloadEncoding ℚ] (steps : List (BooksStep ℚ)),
      ∀ books ∈ states SignerBooks.step sampleStart steps,
        ReplayAgrees (LiveTradingState.starting 1000 0) books := by
  intro h
  let sha : Sha256 := ⟨prefixDigest⟩
  let encoding : PayloadEncoding ℚ := ⟨samplePayloadBytes⟩
  obtain ⟨observer, hreplay, -⟩ := h closedBeforeSync _ (run_mem_states _ _)
  have hrefused : ((replay (ProductionTradingState.new (LiveTradingState.starting 1000 0))
      (run SignerBooks.step sampleStart closedBeforeSync).outbox.events).toOption).isNone = true := by
    decide +kernel
  rw [hreplay] at hrefused
  cases hrefused

end CopyTrade.Analysis
