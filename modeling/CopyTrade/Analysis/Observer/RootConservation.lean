import CopyTrade.Analysis.Observer.EngineSteps
import CopyTrade.Foundation.Tickets
import CopyTrade.Model.Observer.RootEvents

/-!
# The conservation of roots

Every root a summary counts has a terminal outcome or belongs to something that is pending, waits
for a book or is to be continued, and none is both.  A decision keeps this unless an action that
waits for a book meets a continuation or a dropped action at one asset.
-/

namespace CopyTrade.Analysis

open Foundation Model
open Std (ExtTreeMap)

variable {D : Type} [Decimal D] {S : StrategyTypes}

/-- Where a root is held at an asset. -/
inductive RootPlace
  | pending
  | waiting
  | continued
deriving DecidableEq

def slotRoot (slot : Slot D) : RootPlace → Option String
  | .pending => slot.1.map PendingAction.rootPlannedCloid
  | .waiting => slot.2.1
  | .continued => slot.2.2.map ContinuationIntent.rootPlannedCloid

def heldRoot (engine : DecisionEngine D) (place : String × RootPlace) : Option String :=
  slotRoot (slotOf engine place.1) place.2

def IsTerminal (outcome : Option String) : Prop := outcome.isSome = true

/-- The roots of an engine are conserved, and no asset has an action pending and to be
continued. -/
structure RootsBalanced (engine : DecisionEngine D) (log : RootLog) : Prop where
  tickets : TicketsBalanced IsTerminal (heldRoot engine) log.entries
  exclusive : ∀ asset : String, engine.pending[asset]? = none ∨ engine.continuations[asset]? = none

theorem mem_entries_append {log events : RootLog} {entry : String × Option String} :
    entry ∈ (log.append events).entries ↔ entry ∈ log.entries ++ events.entries := by
  simp only [RootLog.entries, RootLog.append, List.map_append, List.mem_append]
  tauto

theorem RootsBalanced.step {engine engine' : DecisionEngine D} {log events : RootLog}
    (h : RootsBalanced engine log)
    (hchange : Accounted IsTerminal (heldRoot engine) (heldRoot engine') log.entries events.entries)
    (hexclusive : ∀ asset : String,
      engine'.pending[asset]? = none ∨ engine'.continuations[asset]? = none) :
    RootsBalanced engine' (log.append events) :=
  ⟨(h.tickets.step hchange).congr fun _ => mem_entries_append, hexclusive⟩

theorem RootsBalanced.of_slots {engine engine' : DecisionEngine D} {log : RootLog}
    (h : RootsBalanced engine log) (hslots : ∀ asset, slotOf engine' asset = slotOf engine asset) :
    RootsBalanced engine' log := by
  have hheld : heldRoot engine' = heldRoot engine := by
    funext place
    rw [heldRoot, heldRoot, hslots]
  refine ⟨hheld ▸ h.tickets, ?_⟩
  intro asset
  have hslot := hslots asset
  simp only [slotOf, Prod.mk.injEq] at hslot
  rw [hslot.1, hslot.2.2]
  exact h.exclusive asset

section

variable {engine : DecisionEngine D} {log : RootLog} {now : ℕ}
  {executable : ExtTreeMap String (Lifecycle.PlannedAction D)} {proposed : ExtTreeMap String D}

/-- The roots that are dropped: the waiting ones of invalidated assets and those of the continuations
without an executable action. -/
theorem logged_dropEvents {root : String} :
    TicketLogged (engine.dropEvents now executable proposed).entries root ↔
      (∃ asset : String, engine.pendingBook[asset]? = some root ∧
        engine.invalidated now executable asset = true) ∨
      ∃ (asset : String) (continuation : ContinuationIntent),
        engine.continuations[asset]? = some continuation ∧ executable.contains asset = false ∧
          continuation.rootPlannedCloid = root := by
  unfold TicketLogged RootLog.entries DecisionEngine.dropEvents
  simp only [List.map_map, List.mem_append, List.mem_map, List.mem_filter, Prod.exists,
    Function.comp_apply, Prod.mk.injEq, ExtTreeMap.mem_toList_iff_getElem?_eq_some,
    Bool.not_eq_true', exists_or]
  constructor
  · rintro (⟨_, asset, cloid, ⟨hwaiting, hinvalid⟩, rfl, -⟩ |
      ⟨_, asset, continuation, ⟨hcontinued, hidle⟩, rfl, -⟩)
    · exact .inl ⟨asset, hwaiting, hinvalid⟩
    · exact .inr ⟨asset, continuation, hcontinued, hidle, rfl⟩
  · rintro (⟨asset, hwaiting, hinvalid⟩ | ⟨asset, continuation, hcontinued, hidle, rfl⟩)
    · exact .inl ⟨_, asset, root, ⟨hwaiting, hinvalid⟩, rfl, rfl⟩
    · exact .inr ⟨_, asset, continuation, ⟨hcontinued, hidle⟩, rfl, rfl⟩

theorem closed_dropEvents {root : String}
    (h : TicketLogged (engine.dropEvents now executable proposed).entries root) :
    TicketClosed IsTerminal (engine.dropEvents now executable proposed).entries root := by
  obtain ⟨outcome, hentry⟩ := h
  refine ⟨outcome, hentry, ?_⟩
  unfold RootLog.entries DecisionEngine.dropEvents at hentry
  simp only [List.map_map, List.mem_append, List.mem_map, Function.comp_apply, Prod.mk.injEq]
    at hentry
  rcases hentry with ⟨_, -, -, rfl⟩ | ⟨_, -, -, rfl⟩
  · split
    · rfl
    · rfl
  · split
    · rfl
    · rfl

def keptPlace (engine : DecisionEngine D) (now : ℕ)
    (executable : ExtTreeMap String (Lifecycle.PlannedAction D)) (asset : String) :
    RootPlace → Bool
  | .continued => executable.contains asset
  | _ => !engine.invalidated now executable asset

theorem heldRoot_dropUnrequired {place : String × RootPlace} {root : String} :
    heldRoot (engine.dropUnrequired now executable) place = some root ↔
      heldRoot engine place = some root ∧
        keptPlace engine now executable place.1 place.2 = true := by
  obtain ⟨asset, place⟩ := place
  rw [heldRoot, heldRoot, slotOf_dropUnrequired]
  unfold droppedSlot slotOf keptPlace
  cases hinvalid : engine.invalidated now executable asset with
  | true =>
    cases place with
    | pending => simp [slotRoot]
    | waiting => simp [slotRoot]
    | continued =>
      simp only [if_pos, slotRoot, Option.map_eq_some_iff, Option.filter_eq_some_iff]
      tauto
  | false =>
    cases place with
    | pending => simp [slotRoot]
    | waiting => simp [slotRoot]
    | continued =>
      simp only [slotRoot, Option.map_eq_some_iff, Option.filter_eq_some_iff, Bool.false_eq_true,
        if_false]
      tauto

theorem rootsBalanced_drop (h : RootsBalanced engine log)
    (hpending : ∀ (asset : String) (pending : PendingAction D),
      engine.invalidated now executable asset = true → engine.pending[asset]? = some pending →
        ¬ TicketLogged log.entries pending.rootPlannedCloid) :
    RootsBalanced (engine.dropUnrequired now executable)
      (log.append (engine.dropEvents now executable proposed)) := by
  have hdropped {root : String} (hroot : TicketLogged
      (engine.dropEvents now executable proposed).entries root) :
      ∃ place, heldRoot engine place = some root ∧
        keptPlace engine now executable place.1 place.2 = false := by
    rcases logged_dropEvents.mp hroot with ⟨asset, hwaiting, hinvalid⟩ |
      ⟨asset, continuation, hcontinued, hidle, rfl⟩
    · exact ⟨(asset, .waiting), hwaiting, by simp [keptPlace, hinvalid]⟩
    · refine ⟨(asset, .continued), ?_, hidle⟩
      simp [heldRoot, slotOf, slotRoot, hcontinued]
  refine h.step ⟨?_, ?_, ?_, ?_, ?_⟩ ?_
  · rintro root ⟨place, hplace⟩
    exact .inl ⟨place, (heldRoot_dropUnrequired.mp hplace).1⟩
  · rintro root ⟨⟨asset, place⟩, hplace⟩ hlogged hopen
    refine ⟨(asset, place), heldRoot_dropUnrequired.mpr ⟨hplace, ?_⟩⟩
    by_contra hgone
    rw [Bool.not_eq_true] at hgone
    cases place with
    | pending =>
      obtain ⟨pending, hsome, rfl⟩ := Option.map_eq_some_iff.mp hplace
      refine hpending asset pending ?_ hsome hlogged
      simpa [keptPlace] using hgone
    | waiting =>
      refine hopen (closed_dropEvents (logged_dropEvents.mpr (.inl ⟨asset, hplace, ?_⟩)))
      simpa [keptPlace] using hgone
    | continued =>
      obtain ⟨continuation, hsome, rfl⟩ := Option.map_eq_some_iff.mp hplace
      exact hopen (closed_dropEvents (logged_dropEvents.mpr
        (.inr ⟨asset, continuation, hsome, hgone, rfl⟩)))
  · intro root hlogged hopen
    exact absurd (closed_dropEvents hlogged) hopen
  · rintro root hclosed ⟨place, hplace⟩
    obtain ⟨hold, hkept⟩ := heldRoot_dropUnrequired.mp hplace
    obtain ⟨other, hother, hgone⟩ := hdropped hclosed.logged
    rw [h.tickets.once hother hold, hkept] at hgone
    cases hgone
  · intro place other root hplace hother
    exact h.tickets.once (heldRoot_dropUnrequired.mp hplace).1 (heldRoot_dropUnrequired.mp hother).1
  · intro asset
    have hslot := slotOf_dropUnrequired engine now executable asset
    simp only [slotOf, droppedSlot] at hslot
    rcases h.exclusive asset with hnone | hnone
    · left
      split at hslot
      · exact congrArg Prod.fst hslot
      · exact (congrArg Prod.fst hslot).trans hnone
    · right
      split at hslot
      · simpa [hnone] using congrArg (fun slot => slot.2.2) hslot
      · simpa [hnone] using congrArg (fun slot => slot.2.2) hslot

end

/-- The entries a replaced slot writes: its waiting action is recomputed, and its pending one
superseded unless it has the cloid of the new one. -/
def replacedEntries (slot : Slot D) (action : Lifecycle.PlannedAction D) :
    List (String × Option String) :=
  slot.2.1.toList.map (fun cloid => (cloid, none)) ++
    (slot.1.filter fun previous => previous.action.plannedCloid != action.plannedCloid).toList.map
      fun previous => (previous.rootPlannedCloid, some "no_longer_required")

/-- What a round does to the roots of its asset, and the entries it writes. -/
inductive RootRound (hasBook : Bool) (action : Lifecycle.PlannedAction D) (slot : Slot D) :
    Slot D → List (String × Option String) → Prop
  | keeps (slot' : Slot D) (same : ∀ place, slotRoot slot' place = slotRoot slot place)
      (pending : slot'.1.isSome = slot.1.isSome) : RootRound hasBook action slot slot' []
  | waits (noneWaits : slot.2.1 = none) :
      RootRound hasBook action slot (slot.1, some (toHex action.plannedCloid), slot.2.2)
        [(toHex action.plannedCloid, none)]
  | replaces (next : PendingAction D) (book : hasBook = true)
      (root : next.rootPlannedCloid =
        (DecisionEngine.rootAndParent slot.2.2 slot.2.1 action).1) :
      RootRound hasBook action slot (some next, none, none) (replacedEntries slot action)

theorem planExecutable_round {allocated : AllocatedTargets D} {decision : DecisionRecord D}
    {input : PortfolioProjectionInput D} {now : ℕ} {engine engine' : DecisionEngine D}
    {entry : String × Lifecycle.PlannedAction D} {events : RootLog}
    (h : DecisionEngine.planExecutable allocated decision input now engine entry = .ok engine')
    (hevents : engine.planExecutableEvents allocated now entry = .ok events) :
    RootRound (engine.freshBook now entry.1).isSome entry.2 (slotOf engine entry.1)
      (slotOf engine' entry.1) events.entries := by
  unfold DecisionEngine.planExecutable at h
  unfold DecisionEngine.planExecutableEvents at hevents
  cases hbook : engine.freshBook now entry.1 with
  | none =>
    rw [hbook] at h hevents
    cases h
    rw [Except.ok.injEq] at hevents
    subst hevents
    unfold DecisionEngine.awaitBook
    by_cases hwaiting : engine.pendingBook.contains entry.1 = true
    · rw [if_pos hwaiting, if_pos hwaiting]
      exact .keeps _ (fun _ => rfl) rfl
    · rw [if_neg hwaiting, if_neg hwaiting]
      have hnone : engine.pendingBook[entry.1]? = none := by
        rw [ExtTreeMap.contains_eq_isSome_getElem?] at hwaiting
        exact Option.not_isSome_iff_eq_none.mp hwaiting
      have hslot : slotOf
          { engine with
            pendingBook := engine.pendingBook.insert entry.1 (toHex entry.2.plannedCloid) }
          entry.1 = ((slotOf engine entry.1).1, some (toHex entry.2.plannedCloid),
            (slotOf engine entry.1).2.2) := by
        unfold slotOf
        rw [getElem?_insert_eq, if_pos rfl]
      rw [hslot]
      exact .waits hnone
  | some book =>
    rw [hbook] at h hevents
    unfold DecisionEngine.planAsset at h
    unfold DecisionEngine.planAssetEvents at hevents
    obtain ⟨rules, hrules, h⟩ := of_bind h
    obtain ⟨rules', hrules', hevents⟩ := of_bind hevents
    have hsame : rules = rules' := by
      cases hfound : allocated.marketRules[entry.1]? with
      | none =>
        rw [hfound] at hrules
        cases hrules
      | some found =>
        rw [hfound] at hrules hrules'
        cases hrules
        cases hrules'
        rfl
    subst hsame
    obtain ⟨snapshot, -, h⟩ := of_bind h
    obtain ⟨-, -, h⟩ := of_bind h
    obtain ⟨tolerance, htolerance, h⟩ := of_bind h
    obtain ⟨tolerance', htolerance', hevents⟩ := of_bind hevents
    rw [htolerance, Except.ok.injEq] at htolerance'
    subst htolerance'
    cases hpreserved : engine.preserved entry.1 entry.2 tolerance with
    | some previous =>
      rw [hpreserved] at h hevents
      cases h
      cases hevents
      have hpending := (Option.filter_eq_some_iff.mp hpreserved).1
      refine .keeps _ ?_ ?_
      · intro place
        unfold slotOf
        dsimp only
        rw [getElem?_insert_eq, if_pos rfl, hpending]
        cases place <;> rfl
      · unfold slotOf
        dsimp only
        rw [getElem?_insert_eq, if_pos rfl, hpending]
        rfl
    | none =>
      rw [hpreserved] at h hevents
      cases h
      cases hevents
      have hentries : RootLog.entries {
          bookEvaluationEvents := engine.pendingBook[entry.1]?.toList.map fun cloid =>
            ⟨entry.1, cloid, .recomputedAction⟩
          actionLifecycleEvents := (engine.pending[entry.1]?.filter fun previous =>
            previous.action.plannedCloid != entry.2.plannedCloid).toList.map fun previous =>
              ⟨entry.1, previous.rootPlannedCloid, .supersededByNewTarget⟩ } =
          replacedEntries (slotOf engine entry.1) entry.2 := by
        unfold RootLog.entries replacedEntries slotOf
        simp only [List.map_map]
        rfl
      have hslot (next : PendingAction D) :
          slotOf { engine with
            pending := engine.pending.insert entry.1 next
            pendingBook := engine.pendingBook.erase entry.1
            continuations := engine.continuations.erase entry.1 } entry.1 =
              (some next, none, none) := by
        unfold slotOf
        dsimp only
        rw [getElem?_insert_eq, if_pos rfl, getElem?_erase_eq, if_pos rfl, getElem?_erase_eq,
          if_pos rfl]
      rw [hslot, hentries]
      exact .replaces _ rfl rfl

/-- An executable action whose round keeps the roots: its cloid is new, it does not find both an
action that waits and a continuation where it has a book, and it does not replace an action of its own
cloid. -/
structure RoundReady (engine : DecisionEngine D) (log : RootLog) (now : ℕ)
    (entry : String × Lifecycle.PlannedAction D) : Prop where
  unused : TicketUnused (heldRoot engine) log.entries (toHex entry.2.plannedCloid)
  oneRoot : (engine.freshBook now entry.1).isSome = true →
    engine.pendingBook[entry.1]? = none ∨ engine.continuations[entry.1]? = none
  renewed : ∀ previous, engine.pending[entry.1]? = some previous →
    previous.action.plannedCloid ≠ entry.2.plannedCloid

section

variable {engine engine' : DecisionEngine D} {log : RootLog} {asset : String}
  {action : Lifecycle.PlannedAction D} {hasBook : Bool} {entries : List (String × Option String)}

variable {slot : Slot D}

theorem rootAndParent_held {root : String}
    (h : (DecisionEngine.rootAndParent slot.2.2 slot.2.1 action).1 = root) :
    (∃ place, place ≠ .pending ∧ slotRoot slot place = some root) ∨
      root = toHex action.plannedCloid := by
  obtain ⟨pending, waiting, continuation⟩ := slot
  unfold DecisionEngine.rootAndParent at h
  cases continuation with
  | some continuation => exact .inl ⟨.continued, by decide, congrArg some h⟩
  | none =>
    cases waiting with
    | some cloid => exact .inl ⟨.waiting, by decide, congrArg some h⟩
    | none => exact .inr h.symm

theorem logged_replacedEntries {root : String} (h : TicketLogged (replacedEntries slot action) root)
    :
    slotRoot slot .waiting = some root ∨
      slotRoot slot .pending = some root ∧ TicketClosed IsTerminal (replacedEntries slot action) root := by
  obtain ⟨outcome, hentry⟩ := h
  have hboth := hentry
  simp only [replacedEntries, List.mem_append, List.mem_map, Option.mem_toList,
    Option.filter_eq_some_iff, Prod.mk.injEq] at hboth
  rcases hboth with ⟨cloid, hwaiting, rfl, -⟩ | ⟨previous, ⟨hprevious, -⟩, rfl, rfl⟩
  · exact .inl hwaiting
  · exact .inr ⟨congrArg (Option.map PendingAction.rootPlannedCloid) hprevious, _, hentry, rfl⟩

theorem closed_replacedEntries {root : String}
    (h : TicketClosed IsTerminal (replacedEntries slot action) root) :
    slotRoot slot .pending = some root := by
  obtain ⟨outcome, hentry, hterminal⟩ := h
  simp only [replacedEntries, List.mem_append, List.mem_map, Option.mem_toList,
    Option.filter_eq_some_iff, Prod.mk.injEq] at hentry
  rcases hentry with ⟨cloid, -, -, rfl⟩ | ⟨previous, ⟨hprevious, -⟩, rfl, -⟩
  · cases hterminal
  · exact congrArg (Option.map PendingAction.rootPlannedCloid) hprevious

theorem superseded_replacedEntries {previous : PendingAction D} (hprevious : slot.1 = some previous)
    (hrenewed : previous.action.plannedCloid ≠ action.plannedCloid) :
    TicketClosed IsTerminal (replacedEntries slot action) previous.rootPlannedCloid := by
  refine ⟨some "no_longer_required", List.mem_append_right _ ?_, rfl⟩
  refine List.mem_map.mpr ⟨previous, ?_, rfl⟩
  rw [Option.mem_toList, Option.filter_eq_some_iff]
  exact ⟨hprevious, by simpa using hrenewed⟩

theorem accounted_replaces (h : RootsBalanced engine log) {next : PendingAction D}
    (hslot : slotOf engine' asset = (some next, none, none))
    (hother : ∀ other, other ≠ asset → slotOf engine' other = slotOf engine other)
    (hroot : next.rootPlannedCloid =
      (DecisionEngine.rootAndParent (slotOf engine asset).2.2 (slotOf engine asset).2.1 action).1)
    (hunused : TicketUnused (heldRoot engine) log.entries (toHex action.plannedCloid))
    (honeRoot : engine.pendingBook[asset]? = none ∨ engine.continuations[asset]? = none)
    (hrenewed : ∀ previous, engine.pending[asset]? = some previous →
      previous.action.plannedCloid ≠ action.plannedCloid) :
    Accounted IsTerminal (heldRoot engine) (heldRoot engine') log.entries
      (replacedEntries (slotOf engine asset) action) := by
  have hown {place : RootPlace} {root : String} : heldRoot engine' (asset, place) = some root ↔
      place = .pending ∧ next.rootPlannedCloid = root := by
    rw [heldRoot, hslot]
    cases place <;> simp [slotRoot]
  have hsame {other : String} (hne : other ≠ asset) (place : RootPlace) :
      heldRoot engine' (other, place) = heldRoot engine (other, place) := by
    rw [heldRoot, heldRoot, hother other hne]
  have hmoved {place : RootPlace} {root : String} (hne : place ≠ .pending)
      (hheld : heldRoot engine (asset, place) = some root) : next.rootPlannedCloid = root := by
    rw [hroot]
    unfold slotOf
    cases place with
    | pending => exact absurd rfl hne
    | waiting =>
      have hwaiting : engine.pendingBook[asset]? = some root := hheld
      rw [hwaiting, honeRoot.resolve_left (by simp [hwaiting])]
      rfl
    | continued =>
      obtain ⟨continuation, hcontinued, rfl⟩ := Option.map_eq_some_iff.mp hheld
      have hcontinued : engine.continuations[asset]? = some continuation := hcontinued
      rw [hcontinued]
      rfl
  have hsource := rootAndParent_held hroot.symm
  have hnowhere {place : String × RootPlace} (hplace : place.1 ≠ asset ∨ place.2 = .pending) :
      heldRoot engine place ≠ some next.rootPlannedCloid := by
    intro hheld
    rcases hsource with ⟨old, hne, hold⟩ | hnew
    · have hat : heldRoot engine (asset, old) = some next.rootPlannedCloid := hold
      obtain rfl := h.tickets.once hheld hat
      rcases hplace with hplace | hplace
      · exact hplace rfl
      · exact hne hplace
    · exact hunused.1 ⟨place, hnew ▸ hheld⟩
  refine ⟨?_, ?_, ?_, ?_, ?_⟩
  · rintro root ⟨⟨other, place⟩, hplace⟩
    by_cases hne : other = asset
    · subst hne
      obtain ⟨-, rfl⟩ := hown.mp hplace
      rcases hsource with ⟨old, -, hold⟩ | hnew
      · exact .inl ⟨(other, old), hold⟩
      · exact .inr (hnew ▸ hunused.2)
    · rw [hsame hne] at hplace
      exact .inl ⟨(other, place), hplace⟩
  · rintro root ⟨⟨other, place⟩, hplace⟩ hlogged hopen
    by_cases hne : other = asset
    · subst hne
      refine ⟨(other, .pending), hown.mpr ⟨rfl, ?_⟩⟩
      by_cases hpending : place = .pending
      · subst hpending
        obtain ⟨previous, hprevious, rfl⟩ := Option.map_eq_some_iff.mp hplace
        exact absurd (superseded_replacedEntries hprevious (hrenewed previous hprevious)) hopen
      · exact hmoved hpending hplace
    · exact ⟨(other, place), (hsame hne place).trans hplace⟩
  · intro root hlogged hopen
    rcases logged_replacedEntries hlogged with hwaiting | ⟨-, hclosed⟩
    · exact ⟨(asset, .pending), hown.mpr ⟨rfl, hmoved (by decide) hwaiting⟩⟩
    · exact absurd hclosed hopen
  · rintro root hclosed ⟨⟨other, place⟩, hplace⟩
    have hpending : heldRoot engine (asset, .pending) = some root := closed_replacedEntries hclosed
    by_cases hne : other = asset
    · subst hne
      obtain ⟨-, rfl⟩ := hown.mp hplace
      exact hnowhere (.inr rfl) hpending
    · rw [hsame hne] at hplace
      exact hne (congrArg Prod.fst (h.tickets.once hplace hpending))
  · rintro ⟨first, place⟩ ⟨second, place'⟩ root hfirst hsecond
    by_cases hone : first = asset
    · subst hone
      obtain ⟨rfl, rfl⟩ := hown.mp hfirst
      by_cases htwo : second = first
      · subst htwo
        obtain ⟨rfl, -⟩ := hown.mp hsecond
        rfl
      · rw [hsame htwo] at hsecond
        exact absurd hsecond (hnowhere (.inl htwo))
    · rw [hsame hone] at hfirst
      by_cases htwo : second = asset
      · subst htwo
        obtain ⟨rfl, rfl⟩ := hown.mp hsecond
        exact absurd hfirst (hnowhere (.inl hone))
      · rw [hsame htwo] at hsecond
        exact h.tickets.once hfirst hsecond

theorem heldRoot_eq_of_slots (hown : ∀ place, slotRoot (slotOf engine' asset) place =
      slotRoot (slotOf engine asset) place)
    (hother : ∀ other, other ≠ asset → slotOf engine' other = slotOf engine other) :
    heldRoot engine' = heldRoot engine := by
  funext ⟨other, place⟩
  rw [heldRoot, heldRoot]
  by_cases hne : other = asset
  · rw [hne]
    exact hown place
  · rw [hother other hne]

theorem heldRoot_eq_update {root : Option String} {at_ : RootPlace}
    (hown : ∀ place, slotRoot (slotOf engine' asset) place =
      if place = at_ then root else slotRoot (slotOf engine asset) place)
    (hother : ∀ other, other ≠ asset → slotOf engine' other = slotOf engine other) :
    heldRoot engine' = Function.update (heldRoot engine) (asset, at_) root := by
  funext ⟨other, place⟩
  rw [Function.update_apply, heldRoot, heldRoot]
  by_cases hne : other = asset
  · subst hne
    rw [hown]
    simp
  · rw [hother other hne, if_neg (fun hplace => hne (congrArg Prod.fst hplace))]

variable {allocated : AllocatedTargets D} {decision : DecisionRecord D}
  {input : PortfolioProjectionInput D} {now : ℕ} {entry : String × Lifecycle.PlannedAction D}
  {events : RootLog}

theorem rootsBalanced_planExecutable (h : RootsBalanced engine log)
    (hready : RoundReady engine log now entry)
    (hplan : DecisionEngine.planExecutable allocated decision input now engine entry = .ok engine')
    (hevents : engine.planExecutableEvents allocated now entry = .ok events) :
    RootsBalanced engine' (log.append events) := by
  have hround := planExecutable_round hplan hevents
  have hother := (planExecutable_step hplan).2.2
  have hexclusive (hown : (slotOf engine' entry.1).1 = none ∨ (slotOf engine' entry.1).2.2 = none)
      (asset : String) : engine'.pending[asset]? = none ∨ engine'.continuations[asset]? = none := by
    by_cases hne : asset = entry.1
    · rw [hne]
      exact hown
    · have hslot := hother asset hne
      simp only [slotOf, Prod.mk.injEq] at hslot
      rw [hslot.1, hslot.2.2]
      exact h.exclusive asset
  refine h.step ?_ (hexclusive ?_)
  · generalize hslot : slotOf engine' entry.1 = slot' at hround
    generalize hentries : events.entries = entries at hround
    cases hround with
    | keeps _ same =>
      rw [heldRoot_eq_of_slots (fun place => hslot ▸ same place) hother]
      exact h.tickets.unchanged
    | waits noneWaits =>
      have hheld : heldRoot engine' = Function.update (heldRoot engine) (entry.1, .waiting)
          (some (toHex entry.2.plannedCloid)) := by
        apply heldRoot_eq_update _ hother
        intro place
        rw [hslot]
        cases place <;> rfl
      rw [hheld]
      exact h.tickets.take noneWaits hready.unused (by simp [IsTerminal])
    | replaces next book root =>
      exact accounted_replaces h hslot hother root hready.unused (hready.oneRoot book)
        hready.renewed
  · generalize hslot : slotOf engine' entry.1 = slot' at hround ⊢
    generalize hentries : events.entries = entries at hround
    cases hround with
    | keeps _ same pending =>
      have hold : (slotOf engine entry.1).1 = none ∨ (slotOf engine entry.1).2.2 = none :=
        h.exclusive entry.1
      rcases hold with hnone | hnone
      · left
        rw [hnone] at pending
        exact Option.isNone_iff_eq_none.mp (by simpa using pending)
      · right
        have hcontinued := same .continued
        simpa [slotRoot, hnone] using hcontinued
    | waits => exact h.exclusive entry.1
    | replaces => exact .inr rfl

theorem unused_planExecutable {cloid : String} (hne : cloid ≠ toHex entry.2.plannedCloid)
    (hunused : TicketUnused (heldRoot engine) log.entries cloid)
    (hplan : DecisionEngine.planExecutable allocated decision input now engine entry = .ok engine')
    (hevents : engine.planExecutableEvents allocated now entry = .ok events) :
    TicketUnused (heldRoot engine') (log.append events).entries cloid := by
  have hround := planExecutable_round hplan hevents
  have hother := (planExecutable_step hplan).2.2
  have hold {place : RootPlace} : slotRoot (slotOf engine entry.1) place ≠ some cloid :=
    fun hheld => hunused.1 ⟨(entry.1, place), hheld⟩
  have hslots : (∀ place, slotRoot (slotOf engine' entry.1) place ≠ some cloid) ∧
      ¬ TicketLogged events.entries cloid := by
    generalize hslot : slotOf engine' entry.1 = slot' at hround ⊢
    generalize hentries : events.entries = entries at hround ⊢
    cases hround with
    | keeps _ same =>
      refine ⟨fun place => same place ▸ hold, ?_⟩
      rintro ⟨_, hnamed⟩
      cases hnamed
    | waits =>
      refine ⟨?_, fun hnamed => hne (logged_singleton.mp hnamed)⟩
      intro place
      cases place with
      | pending => exact @hold .pending
      | waiting => exact fun hheld => hne (Option.some.inj hheld).symm
      | continued => exact @hold .continued
    | replaces next book root =>
      refine ⟨?_, ?_⟩
      · intro place hheld
        cases place with
        | pending =>
          have hroot : next.rootPlannedCloid = cloid := Option.some.inj hheld
          rcases rootAndParent_held (root.symm.trans hroot) with ⟨_, -, hheld⟩ | hcloid
          · exact hold hheld
          · exact hne hcloid
        | waiting => cases hheld
        | continued => cases hheld
      · intro hnamed
        rcases logged_replacedEntries hnamed with hheld | ⟨hheld, -⟩
        · exact hold hheld
        · exact hold hheld
  constructor
  · rintro ⟨⟨other, place⟩, hheld⟩
    by_cases hat : other = entry.1
    · subst hat
      exact hslots.1 place hheld
    · rw [heldRoot, hother other hat] at hheld
      exact hunused.1 ⟨(other, place), hheld⟩
  · rintro ⟨outcome, hnamed⟩
    rcases List.mem_append.mp (mem_entries_append.mp hnamed) with hbefore | hafter
    · exact hunused.2 ⟨outcome, hbefore⟩
    · exact hslots.2 ⟨outcome, hafter⟩

end

theorem append_assoc_rootLog (log events further : RootLog) :
    log.append (events.append further) = (log.append events).append further := by
  simp [RootLog.append, List.append_assoc]

/-- A decision whose executable actions keep the roots: it drops no pending action whose root is
logged together with one that waits, no asset with a book has both an action that waits and a
continuation, and the cloids of the actions are new. -/
structure DecisionKeepsRoots (engine : DecisionEngine D) (log : RootLog) (now : ℕ)
    (executable : ExtTreeMap String (Lifecycle.PlannedAction D)) : Prop where
  dropped : ∀ (asset : String) (pending : PendingAction D),
    engine.invalidated now executable asset = true → engine.pending[asset]? = some pending →
      ¬ TicketLogged log.entries pending.rootPlannedCloid
  ready : ∀ (asset : String) (action : Lifecycle.PlannedAction D),
    executable[asset]? = some action → RoundReady engine log now (asset, action)
  different : ∀ (asset asset' : String) (action action' : Lifecycle.PlannedAction D),
    executable[asset]? = some action → executable[asset']? = some action' →
      toHex action.plannedCloid = toHex action'.plannedCloid → asset = asset'

section

variable {engine engine' : DecisionEngine D} {log events : RootLog} {now : ℕ}
  {allocated : AllocatedTargets D}

variable {executable : ExtTreeMap String (Lifecycle.PlannedAction D)}

theorem DecisionKeepsRoots.of_parts (h : DecisionKeepsRoots engine log now executable)
    (hpending : engine'.pending = engine.pending)
    (hwaiting : engine'.pendingBook = engine.pendingBook)
    (hcontinued : engine'.continuations = engine.continuations)
    (hbooks : engine'.books = engine.books) : DecisionKeepsRoots engine' log now executable := by
  have hheld : heldRoot engine' = heldRoot engine := by
    funext place
    unfold heldRoot slotOf
    rw [hpending, hwaiting, hcontinued]
  have hbook (asset : String) : engine'.freshBook now asset = engine.freshBook now asset := by
    unfold DecisionEngine.freshBook
    rw [hbooks]
  refine ⟨?_, ?_, h.different⟩
  · intro asset pending hinvalid hentry
    refine h.dropped asset pending ?_ (hpending ▸ hentry)
    unfold DecisionEngine.invalidated at hinvalid ⊢
    rwa [hwaiting, hbook] at hinvalid
  · intro asset action haction
    obtain ⟨hunused, honeRoot, hrenewed⟩ := h.ready asset action haction
    refine ⟨hheld ▸ hunused, ?_, hpending ▸ hrenewed⟩
    rw [hbook, hwaiting, hcontinued]
    exact honeRoot

theorem planExecutableEvents_ok {decision : DecisionRecord D} {input : PortfolioProjectionInput D}
    {entry : String × Lifecycle.PlannedAction D}
    (h : DecisionEngine.planExecutable allocated decision input now engine entry = .ok engine') :
    ∃ events, engine.planExecutableEvents allocated now entry = .ok events := by
  unfold DecisionEngine.planExecutable at h
  unfold DecisionEngine.planExecutableEvents
  cases hbook : engine.freshBook now entry.1 with
  | none => exact ⟨_, rfl⟩
  | some book =>
    rw [hbook] at h
    unfold DecisionEngine.planAsset at h
    unfold DecisionEngine.planAssetEvents
    obtain ⟨rules, hrules, h⟩ := of_bind h
    obtain ⟨snapshot, -, h⟩ := of_bind h
    obtain ⟨-, -, h⟩ := of_bind h
    obtain ⟨tolerance, htolerance, -⟩ := of_bind h
    cases hfound : allocated.marketRules[entry.1]? with
    | none =>
      rw [hfound] at hrules
      cases hrules
    | some found =>
      rw [hfound] at hrules
      cases hrules
      rw [ok_bind, htolerance, ok_bind]
      cases engine.preserved entry.1 entry.2 tolerance with
      | some previous => exact ⟨_, rfl⟩
      | none => exact ⟨_, rfl⟩

theorem rootsBalanced_loop {decision : DecisionRecord D} {input : PortfolioProjectionInput D}
    {entries : List (String × Lifecycle.PlannedAction D)} (hkeys : (entries.map Prod.fst).Nodup)
    (hcloids : entries.Pairwise fun first second =>
      toHex first.2.plannedCloid ≠ toHex second.2.plannedCloid)
    (hready : ∀ entry ∈ entries, RoundReady engine (log.append events) now entry)
    (h : RootsBalanced engine (log.append events))
    (hloop : entries.foldlM (DecisionEngine.planExecutable allocated decision input now) engine =
      .ok engine') :
    ∃ events', entries.foldlM (DecisionEngine.planExecutableLogged allocated decision input now)
        (engine, events) = .ok (engine', events') ∧
      RootsBalanced engine' (log.append events') := by
  induction entries generalizing engine events with
  | nil =>
    cases hloop
    exact ⟨events, rfl, h⟩
  | cons entry entries ih =>
    obtain ⟨next, hplan, hloop⟩ := foldlM_cons_eq_ok_iff.mp hloop
    obtain ⟨written, hwritten⟩ := planExecutableEvents_ok hplan
    rw [List.map_cons, List.nodup_cons] at hkeys
    rw [List.pairwise_cons] at hcloids
    have hbalanced := rootsBalanced_planExecutable h (hready entry List.mem_cons_self) hplan hwritten
    obtain ⟨hframe, -, hother⟩ := planExecutable_step hplan
    rw [← append_assoc_rootLog] at hbalanced
    -- a later action finds its own slot and its cloid as they were
    have hnext : ∀ later ∈ entries,
        RoundReady next (log.append (events.append written)) now later := by
      intro later hlater
      have hne : later.1 ≠ entry.1 := fun heq => hkeys.1 (heq ▸ List.mem_map_of_mem hlater)
      have hbefore := hready later (List.mem_cons_of_mem _ hlater)
      have hslot := hother later.1 hne
      simp only [slotOf, Prod.mk.injEq] at hslot
      refine ⟨?_, ?_, ?_⟩
      · rw [append_assoc_rootLog]
        exact unused_planExecutable (hcloids.1 later hlater).symm hbefore.unused hplan hwritten
      · rw [freshBook_of_frame (frameOf_eq_of_withoutSlots hframe), hslot.2.1, hslot.2.2]
        exact hbefore.oneRoot
      · rw [hslot.1]
        exact hbefore.renewed
    obtain ⟨events', hevents, hbalanced⟩ := ih hkeys.2 hcloids.2 hnext hbalanced hloop
    refine ⟨events', foldlM_cons_eq_ok_iff.mpr ⟨(next, events.append written), ?_, hevents⟩,
      hbalanced⟩
    unfold DecisionEngine.planExecutableLogged
    rw [hplan, ok_bind, hwritten, ok_bind]
    rfl

theorem slot_dropUnrequired {asset : String} :
    (∀ pending, (engine.dropUnrequired now executable).pending[asset]? = some pending →
        engine.pending[asset]? = some pending) ∧
      (engine.pendingBook[asset]? = none →
        (engine.dropUnrequired now executable).pendingBook[asset]? = none) ∧
      (engine.continuations[asset]? = none →
        (engine.dropUnrequired now executable).continuations[asset]? = none) := by
  unfold DecisionEngine.dropUnrequired
  rw [ExtTreeMap.getElem?_filter', ExtTreeMap.getElem?_filter', ExtTreeMap.getElem?_filter']
  refine ⟨fun pending h => (Option.filter_eq_some_iff.mp h).1, fun h => ?_, fun h => ?_⟩
  · rw [h]
    rfl
  · rw [h]
    rfl

theorem roundReady_dropUnrequired {proposed : ExtTreeMap String D}
    {entry : String × Lifecycle.PlannedAction D} (h : RoundReady engine log now entry) :
    RoundReady (engine.dropUnrequired now executable)
      (log.append (engine.dropEvents now executable proposed)) now entry where
  unused := by
    constructor
    · rintro ⟨place, hplace⟩
      exact h.unused.1 ⟨place, (heldRoot_dropUnrequired.mp hplace).1⟩
    · rintro ⟨outcome, hnamed⟩
      rcases List.mem_append.mp (mem_entries_append.mp hnamed) with hbefore | hafter
      · exact h.unused.2 ⟨outcome, hbefore⟩
      · rcases logged_dropEvents.mp ⟨outcome, hafter⟩ with ⟨asset, hwaiting, -⟩ |
          ⟨asset, continuation, hcontinued, -, hroot⟩
        · exact h.unused.1 ⟨(asset, .waiting), hwaiting⟩
        · refine h.unused.1 ⟨(asset, .continued), ?_⟩
          simp [heldRoot, slotOf, slotRoot, hcontinued, hroot]
  oneRoot := by
    intro hbook
    exact (h.oneRoot hbook).imp slot_dropUnrequired.2.1 slot_dropUnrequired.2.2
  renewed := fun previous hprevious => h.renewed previous (slot_dropUnrequired.1 previous hprevious)

theorem commitDecision_keepsRoots {planned : PlannedDecision D} {proposed : ExtTreeMap String D}
    (h : RootsBalanced engine log) (hkeeps : DecisionKeepsRoots engine log now planned.executable)
    (hcommit : engine.commitDecision now allocated planned = .ok engine') :
    ∃ events, engine.commitEvents now allocated planned proposed = .ok events ∧
      RootsBalanced engine' (log.append events) := by
  unfold DecisionEngine.commitDecision at hcommit
  obtain ⟨placed, hplaced, htargets⟩ := of_bind hcommit
  have hkeys : (planned.executable.toList.map Prod.fst).Nodup := by
    rw [ExtTreeMap.map_fst_toList_eq_keys]
    exact ExtTreeMap.nodup_keys
  have hmem {entry : String × Lifecycle.PlannedAction D}
      (hentry : entry ∈ planned.executable.toList) :
      planned.executable[entry.1]? = some entry.2 :=
    ExtTreeMap.mem_toList_iff_getElem?_eq_some.mp hentry
  have hcloids : planned.executable.toList.Pairwise fun first second =>
      toHex first.2.plannedCloid ≠ toHex second.2.plannedCloid := by
    refine (List.pairwise_map.mp hkeys).imp_of_mem ?_
    intro first second hfirst hsecond hne hcloid
    exact hne (hkeeps.different _ _ _ _ (hmem hfirst) (hmem hsecond) hcloid)
  obtain ⟨events, hevents, hbalanced⟩ := rootsBalanced_loop hkeys hcloids
    (fun entry hentry => @roundReady_dropUnrequired _ _ _ _ _ _ proposed _
      (hkeeps.ready entry.1 entry.2 (hmem hentry)))
    (rootsBalanced_drop h hkeeps.dropped) hplaced
  refine ⟨events, ?_, ?_⟩
  · unfold DecisionEngine.commitEvents
    dsimp only
    rw [hevents, ok_bind]
    rfl
  · rw [replaceTargets_eq htargets]
    exact hbalanced.of_slots fun _ => rfl

variable [Sha256] [DecimalNormalize D] {settings : EngineSettings D} {strategy : Strategy D}
  {result : Option (PlannedDecision D)}

theorem proposedNotionals_ok {numbered : DecisionEngine D}
    {planned : PlannedDecision D}
    (h : engine.planDecision now allocated = .ok (numbered, planned)) :
    ∃ proposed, numbered.proposedNotionals planned.decision
      (engine.filledPositions allocated.marketRules) = .ok proposed := by
  unfold DecisionEngine.planDecision at h
  obtain ⟨decision, -, h⟩ := of_bind h
  obtain ⟨targeted, -, h⟩ := of_bind h
  obtain ⟨decisionSequence, -, h⟩ := of_bind h
  obtain ⟨actions, hactions, h⟩ := of_bind h
  cases h
  unfold DecisionEngine.proposedNotionals
  rw [hactions]
  exact ⟨_, rfl⟩

theorem constructNextDecision_keepsRoots (h : RootsBalanced engine log)
    (hkeeps : ∀ planned, result = some planned →
      DecisionKeepsRoots engine log now planned.executable)
    (hdecide : engine.constructNextDecision settings now strategy = .ok (engine', result)) :
    ∃ events, engine.decisionEvents settings now strategy = .ok events ∧
      RootsBalanced engine' (log.append events) := by
  unfold DecisionEngine.constructNextDecision at hdecide
  unfold DecisionEngine.decisionEvents
  obtain ⟨accrued, haccrued, hdecide⟩ := of_bind hdecide
  have hslots := slotOf_accrueFunding haccrued
  rw [haccrued, ok_bind]
  have hidle (hnone : pure (accrued, none) = (.ok (engine', result) : Except LiveShadowError _)) :
      ∃ events, (pure .empty : Except LiveShadowError RootLog) = .ok events ∧
        RootsBalanced engine' (log.append events) := by
    cases hnone
    refine ⟨.empty, rfl, ?_⟩
    have hempty : log.append .empty = log := by simp [RootLog.append, RootLog.empty]
    rw [hempty]
    exact h.of_slots hslots
  cases hmids : accrued.freshMids settings now with
  | none =>
    rw [hmids] at hdecide
    exact hidle hdecide
  | some mids =>
    cases hmetadata : accrued.metadata with
    | none =>
      rw [hmids, hmetadata] at hdecide
      exact hidle hdecide
    | some metadata =>
      rw [hmids, hmetadata] at hdecide
      dsimp only at hdecide ⊢
      obtain ⟨allocated, hallocated, hdecide⟩ := of_bind hdecide
      obtain ⟨⟨decided, planned⟩, hdecided, hdecide⟩ := of_bind hdecide
      cases hdecide
      unfold DecisionEngine.decide at hdecided
      obtain ⟨⟨numbered, planned'⟩, hplan, hdecided⟩ := of_bind hdecided
      obtain ⟨committed, hcommit, hdecided⟩ := of_bind hdecided
      cases hdecided
      have hnumbered := (planDecision_eq hplan).1
      obtain ⟨proposed, hproposed⟩ := proposedNotionals_ok hplan
      have hkept := hkeeps _ rfl
      rw [hallocated, ok_bind, hplan, ok_bind]
      rw [hproposed, ok_bind]
      refine commitDecision_keepsRoots (h.of_slots ?_) ?_ hcommit
      · intro asset
        rw [hnumbered]
        exact hslots asset
      · refine hkept.of_parts ?_ ?_ ?_ ?_ <;> rw [hnumbered, accrueFunding_eq haccrued]

end

variable [Sha256] {settings : EngineSettings D} {engine engine' : DecisionEngine D} {log : RootLog}
  {book : OrderBookResponse D} {receivedAt : ℕ} {technicalDesired : D}
  {recompute : ExecutionRecompute} {pending : PendingAction D}

omit [Sha256] in
theorem continueAfter_own {continuations continuations' : ExtTreeMap String ContinuationIntent}
    {asset : String}
    (h : DecisionEngine.continueAfter continuations asset pending recompute = .ok continuations') :
    recompute = .none ∧ continuations' = continuations ∨
      recompute ≠ .none ∧ ∃ continuation : ContinuationIntent,
        continuation.rootPlannedCloid = pending.rootPlannedCloid ∧
          continuations' = continuations.insert asset continuation := by
  unfold DecisionEngine.continueAfter at h
  split at h
  · cases h
    exact .inl ⟨rfl, rfl⟩
  · rename_i hrecompute
    split at h
    · cases h
      exact .inr ⟨hrecompute, _, rfl, rfl⟩
    · cases h

theorem fillPending_slots {evaluation : ShadowMarketSnapshot D} {order : SizedOrder D}
    (h : engine.fillPending settings pending book receivedAt evaluation order technicalDesired
      = .ok (engine', recompute)) :
    engine'.pending = engine.pending.erase book.asset ∧
      engine'.pendingBook = engine.pendingBook ∧
      (recompute = .none ∧ engine'.continuations = engine.continuations ∨
        recompute ≠ .none ∧ ∃ continuation : ContinuationIntent,
          continuation.rootPlannedCloid = pending.rootPlannedCloid ∧
            engine'.continuations = engine.continuations.insert book.asset continuation) := by
  unfold DecisionEngine.fillPending at h
  obtain ⟨accrued, haccrued, h⟩ := of_bind h
  obtain ⟨⟨execution, closedAt⟩, -, h⟩ := of_bind h
  obtain ⟨componentTargets, -, h⟩ := of_bind h
  obtain ⟨partition, -, h⟩ := of_bind h
  obtain ⟨report, -, h⟩ := of_bind h
  obtain ⟨continuations, hcontinue, h⟩ := of_bind h
  cases h
  have hown := continueAfter_own hcontinue
  rw [accrueFunding_eq haccrued] at hown ⊢
  exact ⟨rfl, rfl, hown⟩

omit [Sha256] in
theorem rootsBalanced_attempted (h : RootsBalanced engine log)
    (hpending : engine.pending[book.asset]? = some pending)
    (hslots : engine'.pending = engine.pending.erase book.asset ∧
      engine'.pendingBook = engine.pendingBook) {outcome : ActionAttemptOutcome}
    (hcontinued : outcome.terminal.isSome = true ∧ engine'.continuations = engine.continuations ∨
      outcome.terminal = none ∧ ∃ continuation : ContinuationIntent,
        continuation.rootPlannedCloid = pending.rootPlannedCloid ∧
          engine'.continuations = engine.continuations.insert book.asset continuation) :
    RootsBalanced engine'
      (log.append ⟨[], [⟨book.asset, pending.rootPlannedCloid, outcome⟩]⟩) := by
  have hheld : heldRoot engine (book.asset, .pending) = some pending.rootPlannedCloid := by
    simp [heldRoot, slotOf, slotRoot, hpending]
  have hidle : engine.continuations[book.asset]? = none :=
    (h.exclusive book.asset).resolve_left (by simp [hpending])
  have hentries : RootLog.entries ⟨[], [⟨book.asset, pending.rootPlannedCloid, outcome⟩]⟩ =
      [(pending.rootPlannedCloid, outcome.terminal)] := rfl
  have hown : engine'.pending[book.asset]? = none := by
    rw [hslots.1, getElem?_erase_eq, if_pos rfl]
  have hother (asset : String) (hne : asset ≠ book.asset) :
      slotOf engine' asset = slotOf engine asset := by
    unfold slotOf
    rw [hslots.1, hslots.2, getElem?_erase_eq, if_neg hne.symm]
    rcases hcontinued with ⟨-, hsame⟩ | ⟨-, continuation, -, hinsert⟩
    · rw [hsame]
    · rw [hinsert, getElem?_insert_of_ne hne.symm]
  refine h.step ?_ ?_
  · rw [hentries]
    rcases hcontinued with ⟨hterminal, hsame⟩ | ⟨hopen, continuation, hroot, hinsert⟩
    · have hrelease : heldRoot engine' =
          Function.update (heldRoot engine) (book.asset, .pending) none := by
        apply heldRoot_eq_update _ hother
        intro place
        unfold slotOf
        rw [hown, hslots.2, hsame]
        cases place <;> rfl
      rw [hrelease]
      exact h.tickets.release hheld hterminal
    · have hmove : heldRoot engine' = Function.update
          (Function.update (heldRoot engine) (book.asset, .pending) none)
          (book.asset, .continued) (some pending.rootPlannedCloid) := by
        funext ⟨asset, place⟩
        rw [Function.update_apply, Function.update_apply]
        by_cases hne : asset = book.asset
        · subst hne
          unfold heldRoot slotOf
          rw [hown, hslots.2, hinsert, getElem?_insert_eq, if_pos rfl]
          cases place with
          | pending => simp [slotRoot]
          | waiting => simp [slotRoot]
          | continued => simp [slotRoot, hroot]
        · rw [if_neg (fun hplace => hne (congrArg Prod.fst hplace)),
            if_neg (fun hplace => hne (congrArg Prod.fst hplace)), heldRoot, heldRoot,
            hother asset hne]
      rw [hmove]
      refine h.tickets.move hheld ?_ ?_
      · simp [heldRoot, slotOf, slotRoot, hidle]
      · rw [hopen]
        simp [IsTerminal]
  · intro asset
    by_cases hne : asset = book.asset
    · rw [hne]
      exact .inl hown
    · have hslot := hother asset hne
      simp only [slotOf, Prod.mk.injEq] at hslot
      rw [hslot.1, hslot.2.2]
      exact h.exclusive asset

variable [IntentEncoding D]

theorem tryExecutePending_keepsRoots (h : RootsBalanced engine log)
    (hattempt : engine.tryExecutePending settings book receivedAt technicalDesired =
      .ok (engine', recompute)) :
    ∃ events, engine.attemptEvents settings book receivedAt recompute = .ok events ∧
      RootsBalanced engine' (log.append events) := by
  have hempty : log.append .empty = log := by simp [RootLog.append, RootLog.empty]
  unfold DecisionEngine.tryExecutePending at hattempt
  unfold DecisionEngine.attemptEvents
  cases hpending : engine.pending[book.asset]? with
  | none =>
    rw [hpending] at hattempt
    cases hattempt
    exact ⟨.empty, rfl, hempty.symm ▸ h⟩
  | some pending =>
    rw [hpending] at hattempt
    dsimp only at hattempt ⊢
    by_cases hearly :
        (engine.attemptOf pending book receivedAt).isEarly settings.toShadowSettings = true
    · rw [if_pos hearly] at hattempt ⊢
      cases hattempt
      exact ⟨.empty, rfl, hempty.symm ▸ h⟩
    rw [if_neg hearly] at hattempt ⊢
    obtain ⟨attempted, horder, hattempt⟩ := of_bind hattempt
    rw [horder, ok_bind]
    cases attempted with
    | none =>
      cases hattempt
      refine ⟨_, rfl, ?_⟩
      apply rootsBalanced_attempted h hpending
      · exact ⟨rfl, rfl⟩
      · exact .inl ⟨rfl, rfl⟩
    | some sized =>
      obtain ⟨evaluation, order⟩ := sized
      unfold DecisionEngine.executePending at hattempt
      cases hidentity : engine.productionIdentity with
      | none =>
        rw [hidentity] at hattempt
        obtain ⟨hpendings, hwaiting, hcontinued⟩ := fillPending_slots hattempt
        refine ⟨_, rfl, rootsBalanced_attempted h hpending ⟨hpendings, hwaiting⟩ ?_⟩
        rcases hcontinued with ⟨rfl, hsame⟩ | ⟨hrecompute, hinsert⟩
        · exact .inl ⟨rfl, hsame⟩
        · refine .inr ⟨?_, hinsert⟩
          cases recompute with
          | none => exact absurd rfl hrecompute
          | partialIocRemainder => rfl
          | closeFirstReversal => rfl
      | some identity =>
        rw [hidentity] at hattempt
        dsimp only at hattempt
        cases hemit : engine.emitIntent identity book.asset pending evaluation.midpoint order
            receivedAt with
        | error error =>
          rw [hemit] at hattempt
          cases hattempt
        | ok emitted =>
          rw [hemit] at hattempt
          cases hattempt
          refine ⟨.empty, rfl, ?_⟩
          rw [hempty]
          rcases emitIntent_cases hemit with ⟨-, rfl⟩ | ⟨-, intent, -, rfl⟩
          · exact h
          · exact h.of_slots fun _ => rfl

def attemptedEvents (settings : EngineSettings D) (engine : DecisionEngine D) :
    EngineCall D → RootLog
  | .orderBook book receivedAt technicalDesired _ =>
    match bookAttempt settings engine book receivedAt technicalDesired with
    | .error _ => .empty
    | .ok (_, recompute) =>
      ((withBook engine book receivedAt).attemptEvents settings book receivedAt
        recompute).toOption.getD .empty
  | _ => .empty

variable [DecimalNormalize D]

/-- Where a call makes the engine decide, the decision keeps the roots. -/
def CallKeepsRoots (settings : EngineSettings D) (engine : DecisionEngine D) (log : RootLog)
    (call : EngineCall D) : Prop :=
  ∀ (decides : DecisionEngine D) (now : ℕ) (strategy : Strategy D) (decided : DecisionEngine D)
      (planned : PlannedDecision D),
    decisionPoint settings engine call = some (decides, now, strategy) →
    decides.constructNextDecision settings now strategy = .ok (decided, some planned) →
      DecisionKeepsRoots decides (log.append (attemptedEvents settings engine call)) now
        planned.executable

theorem call_keepsRoots {call : EngineCall D} {result : Option (PlannedDecision D)}
    (h : RootsBalanced engine log) (hkeeps : CallKeepsRoots settings engine log call)
    (hcall : engine.call settings call = .ok (engine', result)) :
    ∃ events, engine.callEvents settings call = .ok events ∧
      RootsBalanced engine' (log.append events) := by
  have hempty : log.append .empty = log := by simp [RootLog.append, RootLog.empty]
  have hsilent (hslots : ∀ asset, slotOf engine' asset = slotOf engine asset) :
      ∃ events, (.ok .empty : Except LiveShadowError RootLog) = .ok events ∧
        RootsBalanced engine' (log.append events) :=
    ⟨.empty, rfl, hempty.symm ▸ h.of_slots hslots⟩
  cases call with
  | decision now strategy =>
    refine constructNextDecision_keepsRoots h ?_ hcall
    rintro planned rfl
    have hdecision := hkeeps engine now strategy engine' planned rfl hcall
    rwa [show attemptedEvents settings engine (.decision now strategy) = .empty from rfl, hempty]
      at hdecision
  | orderBook book receivedAt technicalDesired strategy =>
    obtain ⟨⟨executed, recompute⟩, hexecuted, hcall⟩ := of_bind hcall
    have hattempt : bookAttempt settings engine book receivedAt technicalDesired =
      .ok (executed, recompute) := hexecuted
    have hbooked : RootsBalanced (withBook engine book receivedAt) log := h.of_slots fun _ => rfl
    obtain ⟨attempted, hattempted, hbalanced⟩ := tryExecutePending_keepsRoots hbooked hattempt
    unfold DecisionEngine.callEvents
    dsimp only
    rw [hexecuted, ok_bind]
    dsimp only at hcall ⊢
    have hwritten : DecisionEngine.attemptEvents settings
        { engine with books := engine.books.insert book.asset (book, receivedAt) } book receivedAt
        recompute = .ok attempted := hattempted
    rw [hwritten, ok_bind]
    by_cases hrecompute : (engine.pendingBook.contains book.asset || recompute != .none) = true
    · rw [if_pos hrecompute] at hcall ⊢
      have hpoint : decisionPoint settings engine
          (.orderBook book receivedAt technicalDesired strategy) =
            some (executed, receivedAt, strategy) := by
        unfold decisionPoint
        dsimp only
        rw [hattempt]
        exact if_pos hrecompute
      have hdecisions : ∀ planned, result = some planned →
          DecisionKeepsRoots executed (log.append attempted) receivedAt planned.executable := by
        rintro planned rfl
        have hdecision := hkeeps executed receivedAt strategy engine' planned hpoint hcall
        unfold attemptedEvents at hdecision
        dsimp only at hdecision
        rw [hattempt] at hdecision
        dsimp only at hdecision
        rwa [hattempted] at hdecision
      obtain ⟨decided, hdecided, hbalanced⟩ :=
        constructNextDecision_keepsRoots hbalanced hdecisions hcall
      refine ⟨attempted.append decided, ?_, ?_⟩
      · rw [hdecided]
        rfl
      · rw [append_assoc_rootLog]
        exact hbalanced
    · rw [if_neg hrecompute] at hcall ⊢
      cases hcall
      exact ⟨attempted, rfl, hbalanced⟩
  | marketMetadata metadata receivedAt =>
    obtain ⟨accrued, haccrued, hcall⟩ := of_bind hcall
    cases hcall
    refine hsilent fun asset => ?_
    rw [accrueFunding_eq haccrued]
    rfl
  | equityBoundary now =>
    obtain ⟨accrued, haccrued, hcall⟩ := of_bind hcall
    cases hcall
    exact hsilent (slotOf_accrueFunding haccrued)
  | _ =>
    cases hcall
    exact hsilent fun _ => rfl

end CopyTrade.Analysis
