import CopyTrade.Foundation.LinkedChain
import CopyTrade.Model.Observer.Evidence
import Mathlib.Data.String.Basic

/-!
# The journals are tamper-evident

The hash that either reader leaves was taken of a text with the hash before it and the sequence of
the record, and the two readings of a line of the replay journal agree on these fields.  So the head
of a journal commits to all of its values.  The readers accept what the writers wrote.
-/

namespace CopyTrade.Analysis

open Foundation Model Model.Evidence

section

variable {β : Type} {key : String} {x : β} {fields fields' : List (String × β)}

/-- A sorted map is its field under a key and the others. -/
theorem perm_cons_rest (hsorted : fields.Pairwise fun a b => a.1 < b.1)
    (hkey : fields.lookup key = some x) :
    fields.Perm ((key, x) :: fields.filter fun field => field.1 != key) := by
  obtain ⟨left, right, rfl, hleft⟩ := List.lookup_eq_some_iff.mp hkey
  obtain ⟨-, hright, -⟩ := List.pairwise_append.mp hsorted
  have hafter := (List.pairwise_cons.mp hright).1
  have hother : ∀ field ∈ left ++ right, (field.1 != key) = true := by
    intro field hmem
    rw [bne_iff_ne]
    rcases List.mem_append.mp hmem with hmem | hmem
    · exact (bne_iff_ne.mp (hleft field hmem)).symm
    · exact (hafter field hmem).ne'
  have hrest : ((left ++ (key, x) :: right).filter fun field => field.1 != key) =
      left ++ right := by
    rw [List.filter_append, List.filter_cons_of_neg (by simp), ← List.filter_append]
    exact List.filter_eq_self.mpr hother
  rw [hrest]
  exact List.perm_middle

theorem fields_eq_of_rest_eq (hsorted : fields.Pairwise fun a b => a.1 < b.1)
    (hsorted' : fields'.Pairwise fun a b => a.1 < b.1) (hkey : fields.lookup key = some x)
    (hkey' : fields'.lookup key = some x)
    (hrest : (fields.filter fun field => field.1 != key) =
      fields'.filter fun field => field.1 != key) : fields = fields' := by
  have hperm : fields.Perm fields' := by
    have hfields' := perm_cons_rest hsorted' hkey'
    rw [← hrest] at hfields'
    exact (perm_cons_rest hsorted hkey).trans hfields'.symm
  refine hperm.eq_of_pairwise ?_ hsorted hsorted'
  intro a b _ _ hab hba
  exact absurd (hab.trans hba) (lt_irrefl _)

end

theorem removeEventHash_eq_some_iff {fields preimage : List (String × JsonValue)}
    {stored : String} :
    removeEventHash fields = some (stored, preimage) ↔
      fields.lookup "event_hash" = some (.string stored) ∧
        (fields.filter fun field => field.1 != "event_hash") = preimage := by
  unfold removeEventHash
  split
  · rename_i found hfound
    rw [hfound, Option.some.injEq, Prod.mk.injEq, Option.some.injEq, JsonValue.string.injEq]
  · rename_i hnone
    constructor
    · intro h
      cases h
    · exact fun h => absurd h.1 (hnone stored)

section

variable [Sha256] {R I T : Type} {json : SerdeJson R I T}

variable {line head : String} {lines lines' : List String} {bundle : EvidenceBundle}

theorem verifyCheckpoint_eq_ok_iff {s t : Hash × ℕ} :
    verifyCheckpoint json s line = .ok t ↔
      ∃ checkpoint, json.readCheckpoint line = .ok checkpoint ∧
        checkpoint.payload.sequence = s.2 ∧ checkpoint.previousHash = hex32 s.1 ∧
        checkpoint.checkpointHash = hex32 (checkpointHash json s.1 checkpoint.payload) ∧
        s.2 + 1 ≤ maxU64 ∧ t = (checkpointHash json s.1 checkpoint.payload, s.2 + 1) := by
  unfold verifyCheckpoint
  rw [bind_eq_ok_iff]
  simp only [mapError_eq_ok_iff, refuse_eq_ok_iff, not_or, not_not, and_assoc]
  refine exists_congr fun checkpoint => and_congr_right fun _ => and_congr_right fun _ =>
    and_congr_right fun _ => and_congr_right fun _ => ?_
  cases hnext : checkedAddU64 s.2 1 with
  | none =>
    constructor
    · intro h
      cases h
    · intro h
      rw [checkedAddU64, if_pos h.1] at hnext
      cases hnext
  | some sequence =>
    obtain ⟨rfl, hle⟩ := checkedAddU64_eq_some_iff.mp hnext
    rw [Except.ok.injEq, and_iff_right hle, eq_comm]

omit [Sha256] in
theorem storedFields_eq_ok_iff {stored : String} {preimage : List (String × JsonValue)} :
    storedFields json line = .ok (stored, preimage) ↔
      ∃ fields, json.readValue line = .ok (.object fields) ∧
        removeEventHash fields = some (stored, preimage) := by
  unfold storedFields
  rw [bind_eq_ok_iff]
  constructor
  · rintro ⟨value, hvalue, h⟩
    cases value with
    | object fields =>
      refine ⟨fields, hvalue, ?_⟩
      dsimp only at h
      split at h
      · rename_i found hfound
        cases h
        exact hfound
      · cases h
    | _ => cases h
  · rintro ⟨fields, hfields, hremoved⟩
    refine ⟨_, hfields, ?_⟩
    dsimp only
    rw [hremoved]

/-- What a line is that the loop of the replay journal accepts. -/
structure Loads (json : SerdeJson R I T) (loaded : LoadedEvents R I T) (line stored : String)
    (preimage : List (String × JsonValue)) (event : ReplayEvent R I T) : Prop where
  fields : storedFields json line = .ok (stored, preimage)
  reads : json.readEvent line = .ok event
  first : checkFirst loaded.expected event.payload = .ok ()
  sequence : event.sequence = loaded.expected
  eventHash : event.eventHash = stored
  stored : stored = hex32 (deriveReplayEventHashV2 json preimage)
  previousHash : event.previousHash = loaded.expectedPrevious

theorem loadReplayEvent_eq_ok_iff {loaded next : LoadedEvents R I T} :
    loadReplayEvent json loaded line = .ok next ↔
      ∃ stored preimage event, Loads json loaded line stored preimage event ∧
        next = ⟨loaded.events ++ [event], loaded.expected + 1, stored⟩ := by
  unfold loadReplayEvent
  simp only [bind_eq_ok_iff, refuse_eq_ok_iff, not_or, not_not, Except.ok.injEq]
  constructor
  · rintro ⟨⟨stored, preimage⟩, hfields, event, hreads, _, hfirst, hsequence, ⟨hhash, hstored⟩,
      hprevious, rfl⟩
    exact ⟨stored, preimage, event,
      ⟨hfields, hreads, hfirst, hsequence, hhash, hstored, hprevious⟩, rfl⟩
  · rintro ⟨stored, preimage, event, h, rfl⟩
    exact ⟨(stored, preimage), h.fields, event, h.reads, (), h.first, h.sequence,
      ⟨h.eventHash, h.stored⟩, h.previousHash, rfl⟩

/-- The bytes that the reader hashes in the lines of a journal of checkpoints. -/
def CheckpointHashed (json : SerdeJson R I T) (lines : List String) (bytes : List UInt8) : Prop :=
  ∃ line ∈ lines, ∃ checkpoint previous, json.readCheckpoint line = .ok checkpoint ∧
    checkpoint.previousHash = hex32 previous ∧
    bytes = checkpointPreimage json previous checkpoint.payload

/-- The bytes that the reader hashes in the lines of a replay journal. -/
def EventHashed (json : SerdeJson R I T) (lines : List String) (bytes : List UInt8) : Prop :=
  ∃ line ∈ lines, ∃ stored preimage, storedFields json line = .ok (stored, preimage) ∧
    bytes = textBytes (json.valueText (.object preimage))

def NoCollision (S S' : List UInt8 → Prop) : Prop :=
  ∀ a b, S a → S' b → Sha256.digest a = Sha256.digest b → a = b

/-- Different payloads of two journals of checkpoints have different texts and different hashes. -/
structure CheckpointsApart (json : SerdeJson R I T) (lines lines' : List String) : Prop where
  texts : ∀ line ∈ lines, ∀ line' ∈ lines', ∀ checkpoint checkpoint',
    json.readCheckpoint line = .ok checkpoint → json.readCheckpoint line' = .ok checkpoint' →
      json.payloadText checkpoint.payload = json.payloadText checkpoint'.payload →
        checkpoint.payload = checkpoint'.payload
  hashes : NoCollision (CheckpointHashed json lines) (CheckpointHashed json lines')

/-- Different values of two replay journals have different texts and different hashes. -/
structure EventsApart (json : SerdeJson R I T) (lines lines' : List String) : Prop where
  texts : ∀ line ∈ lines, ∀ line' ∈ lines', ∀ stored stored' preimage preimage',
    storedFields json line = .ok (stored, preimage) →
      storedFields json line' = .ok (stored', preimage') →
        json.valueText (.object preimage) = json.valueText (.object preimage') →
          preimage = preimage'
  hashes : NoCollision (EventHashed json lines) (EventHashed json lines')

/-- The two readings of a line: a map has its keys in order, and the typed event has the sequence and
the hash that the value has. -/
structure ReadsAlike (json : SerdeJson R I T) : Prop where
  sorted : ∀ line fields, json.readValue line = .ok (.object fields) →
    fields.Pairwise fun a b => a.1 < b.1
  bounded : ∀ line event, json.readEvent line = .ok event → event.sequence ≤ maxU64
  sequence : ∀ line fields event, json.readValue line = .ok (.object fields) →
    json.readEvent line = .ok event → fields.lookup "sequence" = some (u64Value event.sequence)
  previousHash : ∀ line fields event, json.readValue line = .ok (.object fields) →
    json.readEvent line = .ok event →
      fields.lookup "previous_hash" = some (.string event.previousHash)

theorem checkpoint_binding (h : CheckpointsApart json lines lines') :
    ∀ line ∈ lines, ∀ line' ∈ lines', ∀ s s' t t', verifyCheckpoint json s line = .ok t →
      verifyCheckpoint json s' line' = .ok t' → t.1 = t'.1 →
        s.2 = s'.2 ∧ s.1 = s'.1 ∧ json.readCheckpoint line = json.readCheckpoint line' := by
  intro line hline line' hline' s s' t t' hstep hstep' hhead
  obtain ⟨⟨previousHash, payload, hash⟩, hread, hsequence, hprevious, hhash, -, rfl⟩ :=
    verifyCheckpoint_eq_ok_iff.mp hstep
  obtain ⟨⟨previousHash', payload', hash'⟩, hread', hsequence', hprevious', hhash', -, rfl⟩ :=
    verifyCheckpoint_eq_ok_iff.mp hstep'
  dsimp only at *
  have hbytes : checkpointPreimage json s.1 payload = checkpointPreimage json s'.1 payload' :=
    h.hashes _ _ ⟨line, hline, _, _, hread, hprevious, rfl⟩
      ⟨line', hline', _, _, hread', hprevious', rfl⟩ hhead
  -- The hash in front has 32 bytes in both.
  obtain ⟨hhashes, htexts⟩ := List.append_inj hbytes (by rw [s.1.2, s'.1.2])
  have htext := textBytes_injective (List.append_cancel_left htexts)
  have hpayload : payload = payload' := h.texts line hline line' hline' _ _ hread hread' htext
  subst hpayload
  have hheads : s.1 = s'.1 := Subtype.ext hhashes
  refine ⟨hsequence.symm.trans hsequence', hheads, ?_⟩
  rw [hread, hread', hprevious, hprevious', hhash, hhash', hheads]

omit [Sha256] in
theorem u64Value_inj {n m : ℕ} (hn : n ≤ maxU64) (hm : m ≤ maxU64) (h : u64Value n = u64Value m) :
    n = m := by
  have hword : UInt64.ofNat n = UInt64.ofNat m := by
    unfold u64Value at h
    injection h with h
    injection h
  have hnat := congrArg UInt64.toNat hword
  unfold maxU64 at hn hm
  rw [UInt64.toNat_ofNat', UInt64.toNat_ofNat'] at hnat
  omega

theorem event_binding (halike : ReadsAlike json) (h : EventsApart json lines lines') :
    ∀ line ∈ lines, ∀ line' ∈ lines', ∀ s s' t t', loadReplayEvent json s line = .ok t →
      loadReplayEvent json s' line' = .ok t' → t.expectedPrevious = t'.expectedPrevious →
        s.expected = s'.expected ∧ s.expectedPrevious = s'.expectedPrevious ∧
          json.readValue line = json.readValue line' := by
  intro line hline line' hline' s s' t t' hstep hstep' hhead
  obtain ⟨stored, preimage, event, hloads, rfl⟩ := loadReplayEvent_eq_ok_iff.mp hstep
  obtain ⟨stored', preimage', event', hloads', rfl⟩ := loadReplayEvent_eq_ok_iff.mp hstep'
  obtain rfl : stored = stored' := hhead
  have hdigest : deriveReplayEventHashV2 json preimage = deriveReplayEventHashV2 json preimage' :=
    hex32_inj.mp (hloads.stored.symm.trans hloads'.stored)
  have hbytes := h.hashes _ _ ⟨line, hline, _, _, hloads.fields, rfl⟩
    ⟨line', hline', _, _, hloads'.fields, rfl⟩ hdigest
  obtain rfl : preimage = preimage' := h.texts line hline line' hline' _ _ _ _ hloads.fields
    hloads'.fields (textBytes_injective hbytes)
  obtain ⟨fields, hvalue, hremoved⟩ := storedFields_eq_ok_iff.mp hloads.fields
  obtain ⟨fields', hvalue', hremoved'⟩ := storedFields_eq_ok_iff.mp hloads'.fields
  obtain ⟨hkey, hrest⟩ := removeEventHash_eq_some_iff.mp hremoved
  obtain ⟨hkey', hrest'⟩ := removeEventHash_eq_some_iff.mp hremoved'
  have hfields : fields = fields' := fields_eq_of_rest_eq (halike.sorted _ _ hvalue)
    (halike.sorted _ _ hvalue') hkey hkey' (hrest.trans hrest'.symm)
  subst hfields
  have hsequence := (halike.sequence _ _ _ hvalue hloads.reads).symm.trans
    (halike.sequence _ _ _ hvalue' hloads'.reads)
  have hprevious := (halike.previousHash _ _ _ hvalue hloads.reads).symm.trans
    (halike.previousHash _ _ _ hvalue' hloads'.reads)
  refine ⟨?_, ?_, hvalue.trans hvalue'.symm⟩
  · rw [← hloads.sequence, ← hloads'.sequence]
    exact u64Value_inj (halike.bounded _ _ hloads.reads) (halike.bounded _ _ hloads'.reads)
      (Option.some.inj hsequence)
  · rw [← hloads.previousHash, ← hloads'.previousHash]
    exact JsonValue.string.inj (Option.some.inj hprevious)

omit [Sha256] in
theorem map_eq_of_forall₂ {β : Type} {f : String → β}
    (h : List.Forall₂ (fun line line' => f line = f line') lines lines') :
    lines.map f = lines'.map f := by
  rw [← List.forall₂_eq_eq_eq, List.forall₂_map_left_iff, List.forall₂_map_right_iff]
  exact h

theorem verifyCheckpoint_count (s : Hash × ℕ) (line : String) (t : Hash × ℕ)
    (h : verifyCheckpoint json s line = .ok t) : t.2 = s.2 + 1 := by
  obtain ⟨checkpoint, -, -, -, -, -, rfl⟩ := verifyCheckpoint_eq_ok_iff.mp h
  rfl

theorem verifyCheckpointChain_eq_ok_iff :
    verifyCheckpointChain json lines = .ok head ↔
      ∃ s, lines.foldlM (verifyCheckpoint json) (.replicate 32 0, 0) = .ok s ∧ lines ≠ [] ∧
        hex32 s.1 = head := by
  unfold verifyCheckpointChain
  rw [bind_eq_ok_iff]
  refine exists_congr fun s => and_congr_right fun hfold => ?_
  have hcount := count_of_foldlM verifyCheckpoint_count hfold
  rw [refuse_eq_ok_iff, Except.ok.injEq, hcount, Nat.zero_add, List.length_eq_zero_iff]

theorem checkpoints_committed (hapart : CheckpointsApart json lines lines')
    (h : verifyCheckpointChain json lines = .ok head)
    (h' : verifyCheckpointChain json lines' = .ok head) :
    lines.map json.readCheckpoint = lines'.map json.readCheckpoint := by
  obtain ⟨s, hfold, hne, rfl⟩ := verifyCheckpointChain_eq_ok_iff.mp h
  obtain ⟨s', hfold', hne', hhead⟩ := verifyCheckpointChain_eq_ok_iff.mp h'
  apply map_eq_of_forall₂
  exact forall₂_of_head_eq verifyCheckpoint_count (checkpoint_binding hapart) hfold hfold'
    (hex32_inj.mp hhead.symm) (iff_of_false hne hne')

theorem loadReplayEvent_count (s : LoadedEvents R I T) (line : String) (t : LoadedEvents R I T)
    (h : loadReplayEvent json s line = .ok t) : t.expected = s.expected + 1 := by
  obtain ⟨stored, preimage, event, -, rfl⟩ := loadReplayEvent_eq_ok_iff.mp h
  rfl

/-- The hash of the last event is the one that the loop carries. -/
theorem verifyReplayEventChain_eq_ok_iff :
    verifyReplayEventChain json lines = .ok head ↔
      ∃ loaded, lines.foldlM (loadReplayEvent json) ⟨[], 0, hex32 (.replicate 32 0)⟩ =
          .ok loaded ∧ lines ≠ [] ∧ loaded.expectedPrevious = head := by
  unfold verifyReplayEventChain loadReplayEvents
  simp only [bind_eq_ok_iff, refuse_eq_ok_iff, Except.ok.injEq]
  rcases List.eq_nil_or_concat lines with rfl | ⟨init, line, rfl⟩
  · constructor
    · rintro ⟨events, ⟨loaded, hfold, hne, -⟩, -⟩
      rw [List.foldlM_nil, pure_eq_ok_iff] at hfold
      subst hfold
      exact absurd rfl hne
    · rintro ⟨loaded, -, hne, -⟩
      exact absurd rfl hne
  · rw [List.concat_eq_append]
    have hlast : ∀ loaded, (init ++ [line]).foldlM (loadReplayEvent json)
        ⟨[], 0, hex32 (.replicate 32 0)⟩ = .ok loaded →
          ∃ events event, loaded.events = events ++ [event] ∧
            event.eventHash = loaded.expectedPrevious := by
      intro loaded hfold
      obtain ⟨before, -, hstep⟩ := foldlM_snoc_eq_ok_iff.mp hfold
      obtain ⟨stored, preimage, event, hloads, rfl⟩ := loadReplayEvent_eq_ok_iff.mp hstep
      exact ⟨before.events, event, rfl, hloads.eventHash⟩
    constructor
    · rintro ⟨events, ⟨loaded, hfold, -, rfl⟩, h⟩
      obtain ⟨earlier, event, hevents, hhash⟩ := hlast loaded hfold
      rw [hevents, List.getLast?_concat] at h
      exact ⟨loaded, hfold, by simp, hhash.symm.trans (Except.ok.inj h)⟩
    · rintro ⟨loaded, hfold, -, rfl⟩
      obtain ⟨earlier, event, hevents, hhash⟩ := hlast loaded hfold
      refine ⟨loaded.events, ⟨loaded, hfold, by simp [hevents], rfl⟩, ?_⟩
      rw [hevents, List.getLast?_concat, ← hhash]

theorem events_committed (halike : ReadsAlike json) (hapart : EventsApart json lines lines')
    (h : verifyReplayEventChain json lines = .ok head)
    (h' : verifyReplayEventChain json lines' = .ok head) :
    lines.map json.readValue = lines'.map json.readValue := by
  obtain ⟨s, hfold, hne, hhead⟩ := verifyReplayEventChain_eq_ok_iff.mp h
  obtain ⟨s', hfold', hne', hhead'⟩ := verifyReplayEventChain_eq_ok_iff.mp h'
  apply map_eq_of_forall₂
  exact forall₂_of_head_eq loadReplayEvent_count (event_binding halike hapart) hfold hfold'
    (hhead.trans hhead'.symm) (iff_of_false hne hne')

inductive EvidenceCall (R I T : Type)
  | checkpoint (payload : CheckpointPayload)
  | replayEvent (observedAtMono : ℕ) (payload : ReplayPayload R I T)

def callEvidence (json : SerdeJson R I T) (bundle : EvidenceBundle) :
    EvidenceCall R I T → Except EvidenceError EvidenceBundle
  | .checkpoint payload => Prod.snd <$> bundle.appendCheckpoint json payload
  | .replayEvent observedAtMono payload => bundle.appendReplayEvent json observedAtMono payload

/-- `serde_json` reads back what the call writes; a run context is read as it was. -/
def ReadsBack (json : SerdeJson R I T) (bundle : EvidenceBundle) : EvidenceCall R I T → Prop
  | .checkpoint payload =>
    json.readCheckpoint (json.checkpointText (bundle.chained json payload)) =
      .ok (bundle.chained json payload)
  | .replayEvent observedAtMono payload =>
    let preimage := bundle.preimage json observedAtMono payload
    let line := json.valueText (persisted json preimage)
    json.readValue line = .ok (persisted json preimage) ∧
      ∃ event, json.readEvent line = .ok event ∧ event.sequence = bundle.nextReplaySequence ∧
        event.previousHash = hex32 bundle.replayChainHead ∧
        event.eventHash = hex32 (deriveReplayEventHashV2 json preimage) ∧
        (checkContext payload = .ok () → checkContext event.payload = .ok ())

/-- `serde_json` reads back everything that a run writes. -/
def RunReadsBack (json : SerdeJson R I T) : EvidenceBundle → List (EvidenceCall R I T) → Prop
  | _, [] => True
  | bundle, call :: calls => ReadsBack json bundle call ∧
      ∀ next, callEvidence json bundle call = .ok next → RunReadsBack json next calls

/-- The first replay event is the context of the format. -/
def ContextFirst : List (EvidenceCall R I T) → Prop
  | [] => True
  | .checkpoint _ :: calls => ContextFirst calls
  | .replayEvent _ payload :: _ => checkContext payload = .ok ()

theorem callEvidence_checkpoint {next : EvidenceBundle} {payload : CheckpointPayload}
    (hback : ReadsBack json bundle (.checkpoint payload : EvidenceCall R I T))
    (h : callEvidence json bundle (.checkpoint payload) = .ok next) :
    (∃ line, next.checkpoints = bundle.checkpoints ++ [line] ∧
      verifyCheckpoint json (bundle.chainHead, bundle.nextSequence) line =
        .ok (next.chainHead, next.nextSequence)) ∧
      next.replayEvents = bundle.replayEvents ∧
      next.nextReplaySequence = bundle.nextReplaySequence ∧
      next.replayChainHead = bundle.replayChainHead := by
  unfold callEvidence EvidenceBundle.appendCheckpoint at h
  cases hnext : checkedAddU64 bundle.nextSequence 1 with
  | none =>
    simp only [hnext] at h
    cases h
  | some sequence =>
    simp only [hnext] at h
    cases h
    obtain ⟨rfl, hle⟩ := checkedAddU64_eq_some_iff.mp hnext
    refine ⟨⟨_, rfl, ?_⟩, rfl, rfl, rfl⟩
    exact verifyCheckpoint_eq_ok_iff.mpr ⟨_, hback, rfl, rfl, rfl, hle, rfl⟩

theorem callEvidence_replayEvent {next : EvidenceBundle} {observedAtMono : ℕ}
    {payload : ReplayPayload R I T} (events : List (ReplayEvent R I T))
    (hback : ReadsBack json bundle (.replayEvent observedAtMono payload))
    (h : callEvidence json bundle (.replayEvent observedAtMono payload) = .ok next) :
    ((bundle.nextReplaySequence = 0 → checkContext payload = .ok ()) →
      ∃ line event, next.replayEvents = bundle.replayEvents ++ [line] ∧ loadReplayEvent json
        ⟨events, bundle.nextReplaySequence, hex32 bundle.replayChainHead⟩ line =
          .ok ⟨events ++ [event], next.nextReplaySequence, hex32 next.replayChainHead⟩) ∧
      next.nextReplaySequence = bundle.nextReplaySequence + 1 ∧
      next.checkpoints = bundle.checkpoints ∧ next.chainHead = bundle.chainHead ∧
      next.nextSequence = bundle.nextSequence := by
  unfold callEvidence EvidenceBundle.appendReplayEvent at h
  cases hnext : checkedAddU64 bundle.nextReplaySequence 1 with
  | none =>
    simp only [hnext] at h
    cases h
  | some sequence =>
    simp only [hnext] at h
    cases h
    obtain ⟨rfl, hle⟩ := checkedAddU64_eq_some_iff.mp hnext
    obtain ⟨hvalue, event, hreads, hsequence, hprevious, hhash, hcontext⟩ := hback
    refine ⟨fun hfirst => ⟨_, event, rfl, ?_⟩, rfl, rfl, rfl, rfl⟩
    have hstored : storedFields json (json.valueText
        (persisted json (bundle.preimage json observedAtMono payload))) =
          .ok (hex32 (deriveReplayEventHashV2 json (bundle.preimage json observedAtMono payload)),
            bundle.preimage json observedAtMono payload) :=
      storedFields_eq_ok_iff.mpr ⟨_, hvalue, removeEventHash_eq_some_iff.mpr ⟨rfl, rfl⟩⟩
    refine loadReplayEvent_eq_ok_iff.mpr ⟨_, _, event,
      ⟨hstored, hreads, ?_, hsequence, hhash, rfl, hprevious⟩, rfl⟩
    unfold checkFirst
    split
    · rename_i hzero
      exact hcontext (hfirst hzero)
    · rfl

/-- The readers accept the journals of a bundle under its heads; the replay journal if `context`
holds. -/
structure Accepted (json : SerdeJson R I T) (context : Prop) (bundle : EvidenceBundle) : Prop where
  checkpoints : bundle.checkpoints.foldlM (verifyCheckpoint json) (.replicate 32 0, 0) =
    .ok (bundle.chainHead, bundle.nextSequence)
  events : context → ∃ events,
    bundle.replayEvents.foldlM (loadReplayEvent json) ⟨[], 0, hex32 (.replicate 32 0)⟩ =
      .ok ⟨events, bundle.nextReplaySequence, hex32 bundle.replayChainHead⟩

theorem Accepted.run {context : Prop} {calls : List (EvidenceCall R I T)} {last : EvidenceBundle}
    (h : Accepted json context bundle)
    (hfirst : context → bundle.nextReplaySequence = 0 → ContextFirst calls)
    (hback : RunReadsBack json bundle calls)
    (hrun : calls.foldlM (callEvidence json) bundle = .ok last) : Accepted json context last := by
  induction calls generalizing bundle with
  | nil =>
    rw [List.foldlM_nil, pure_eq_ok_iff] at hrun
    exact hrun ▸ h
  | cons call calls ih =>
    obtain ⟨next, hcall, hrest⟩ := foldlM_cons_eq_ok_iff.mp hrun
    refine ih ?_ ?_ (hback.2 next hcall) hrest
    · cases call with
      | checkpoint payload =>
        obtain ⟨⟨line, hlines, hline⟩, hevents, hsequence, hhead⟩ :=
          callEvidence_checkpoint hback.1 hcall
        constructor
        · rw [hlines]
          exact foldlM_snoc_eq_ok_iff.mpr ⟨_, h.checkpoints, hline⟩
        · rw [hevents, hsequence, hhead]
          exact h.events
      | replayEvent observedAtMono payload =>
        constructor
        · obtain ⟨-, -, hcheckpoints, hhead, hsequence⟩ :=
            callEvidence_replayEvent [] hback.1 hcall
          rw [hcheckpoints, hhead, hsequence]
          exact h.checkpoints
        · intro hcontext
          obtain ⟨events, hloaded⟩ := h.events hcontext
          obtain ⟨hloads, -⟩ := callEvidence_replayEvent events hback.1 hcall
          obtain ⟨line, event, hlines, hline⟩ := hloads (hfirst hcontext)
          refine ⟨events ++ [event], ?_⟩
          rw [hlines]
          exact foldlM_snoc_eq_ok_iff.mpr ⟨_, hloaded, hline⟩
    · intro hcontext hzero
      cases call with
      | checkpoint payload =>
        obtain ⟨-, -, hsequence, -⟩ := callEvidence_checkpoint hback.1 hcall
        exact hfirst hcontext (hsequence ▸ hzero)
      | replayEvent observedAtMono payload =>
        obtain ⟨-, hsequence, -⟩ := callEvidence_replayEvent [] hback.1 hcall
        omega

/-- **The journals are tamper-evident.**  The readers accept what a run writes if the first replay
event is the context of the format; and two journals that a reader accepts under one head have the
same records, unless two of the hashed texts collide. -/
theorem evidence_chains_tamper_evident (json : SerdeJson R I T) :
    (∀ (calls : List (EvidenceCall R I T)) (bundle : EvidenceBundle),
      calls.foldlM (callEvidence json) .create = .ok bundle → RunReadsBack json .create calls →
        (bundle.checkpoints ≠ [] →
          verifyCheckpointChain json bundle.checkpoints = .ok (hex32 bundle.chainHead)) ∧
        (bundle.replayEvents ≠ [] → ContextFirst calls →
          verifyReplayEventChain json bundle.replayEvents =
            .ok (hex32 bundle.replayChainHead))) ∧
    (∀ (lines lines' : List String) (head : String), CheckpointsApart json lines lines' →
      verifyCheckpointChain json lines = .ok head → verifyCheckpointChain json lines' = .ok head →
        lines.map json.readCheckpoint = lines'.map json.readCheckpoint) ∧
    ∀ (lines lines' : List String) (head : String), ReadsAlike json → EventsApart json lines lines' →
      verifyReplayEventChain json lines = .ok head → verifyReplayEventChain json lines' = .ok head →
        lines.map json.readValue = lines'.map json.readValue := by
  refine ⟨?_, fun _ _ _ => checkpoints_committed, fun _ _ _ => events_committed⟩
  intro calls bundle hrun hback
  have hcreate : Accepted json (ContextFirst calls) .create := ⟨rfl, fun _ => ⟨[], rfl⟩⟩
  have haccepted := hcreate.run (fun hcontext _ => hcontext) hback hrun
  constructor
  · intro hne
    exact verifyCheckpointChain_eq_ok_iff.mpr ⟨_, haccepted.checkpoints, hne, rfl⟩
  · intro hne hcontext
    obtain ⟨events, hloaded⟩ := haccepted.events hcontext
    exact verifyReplayEventChain_eq_ok_iff.mpr ⟨_, hloaded, hne, rfl⟩

end

/-- The names of the fields of a checkpoint, before and after `persistence_healthy`. -/
def countNames : List String := [
  "monotonic_elapsed_ms", "accepted_source_snapshots", "stale_source_snapshots",
  "rejected_source_snapshots", "active_source_count", "total_weight_consumed",
  "reserved_weight_consumed", "pending_queue", "successor_queue", "in_flight",
  "rate_limited_responses", "retry_count", "decision_count", "projection_violations",
  "shadow_execution_count", "open_episode_count", "closed_episode_count"]

def mapNames : List String := [
  "accepted_snapshot_expired_by_age", "candidate_never_refreshed", "request_expired_in_queue",
  "request_superseded_pending", "request_superseded_in_flight", "dispatch_count_by_tier",
  "accepted_count_by_tier", "queue_wait_ms_by_tier", "transport_latency_ms_by_kind",
  "fresh_candidates_by_tier", "oldest_pending_age_by_tier"]

def idlePayloadText (payload : CheckpointPayload) : String :=
  let field (name value : String) := "\"" ++ name ++ "\":" ++ value
  "\x7b" ++ String.intercalate "," ([field "sequence" (toString payload.sequence)] ++
    countNames.map (field · "0") ++
    [field "persistence_healthy" "true", field "response_rejected_as_stale" "0"] ++
    mapNames.map (field · "\x7b\x7d")) ++ "\x7d"

/-- The text of a string without characters to escape, and of a number. -/
def leafText : JsonValue → String
  | .string text => "\"" ++ text ++ "\""
  | .number (.posInt value) => toString value.toNat
  | _ => "null"

def flatText (leaf : JsonValue → String) : JsonValue → String
  | .object fields => "\x7b" ++ String.intercalate ","
      (fields.map fun field => "\"" ++ field.1 ++ "\":" ++ leaf field.2) ++ "\x7d"
  | value => leafText value

abbrev PlainPayload := ReplayPayload Empty Empty Empty

def plainValue : PlainPayload → JsonValue
  | .runContext version canonicalization binary configuration risk read transport => .object [
      ("binary_sha256", .string binary), ("canonicalization", .string canonicalization),
      ("configuration_sha256", .string configuration), ("kind", .string "run_context"),
      ("read_policy_sha256", .string read), ("replay_chain_version", u64Value version),
      ("risk_policy_sha256", .string risk), ("transport_policy_sha256", .string transport)]
  | .decisionTick => .object [("kind", .string "decision_tick")]
  | _ => .null

def idlePayload : CheckpointPayload :=
  ⟨0, 0, 0, 0, 0, 0, 0, 0, 0, 0, 0, 0, 0, 0, 0, 0, 0, 0, true, 0, ∅, ∅, ∅, ∅, ∅, ∅, ∅, ∅, ∅, ∅, ∅⟩

section

variable [Sha256]

def plainWriter : SerdeJson Empty Empty Empty where
  payloadText := idlePayloadText
  checkpointText := fun checkpoint => "\x7b\"previous_hash\":\"" ++ checkpoint.previousHash ++
    "\",\"payload\":" ++ idlePayloadText checkpoint.payload ++ ",\"checkpoint_hash\":\"" ++
    checkpoint.checkpointHash ++ "\"\x7d"
  readCheckpoint := fun _ => .error "expected value"
  toValue := plainValue
  valueText := flatText (flatText leafText)
  readValue := fun _ => .error "expected value"
  readEvent := fun _ => .error "expected value"

def plainReader (checkpoint : ChainedCheckpoint) (value : JsonValue)
    (event : ReplayEvent Empty Empty Empty) : SerdeJson Empty Empty Empty :=
  { plainWriter with
    readCheckpoint := fun text =>
      if text = plainWriter.checkpointText checkpoint then .ok checkpoint
      else .error "expected value"
    readValue := fun text =>
      if text = plainWriter.valueText value then .ok value else .error "expected value"
    readEvent := fun text =>
      if text = plainWriter.valueText value then .ok event else .error "expected value" }

/-- `serde_json` on the journals of an idle checkpoint and of a first event. -/
def plainJson (observedAtMono : ℕ) (payload : PlainPayload) : SerdeJson Empty Empty Empty :=
  let preimage := EvidenceBundle.create.preimage plainWriter observedAtMono payload
  plainReader (EvidenceBundle.create.chained plainWriter idlePayload)
    (persisted plainWriter preimage)
    { sequence := 0
      observedAtMono
      payload
      previousHash := hex32 (.replicate 32 0)
      eventHash := hex32 (deriveReplayEventHashV2 plainWriter preimage) }

theorem plainJson_readsBack_checkpoint (observedAtMono : ℕ) (payload : PlainPayload) :
    ReadsBack (plainJson observedAtMono payload) .create
      (.checkpoint idlePayload : EvidenceCall Empty Empty Empty) := by
  have hchained : EvidenceBundle.create.chained (plainJson observedAtMono payload) idlePayload =
      EvidenceBundle.create.chained plainWriter idlePayload := rfl
  unfold ReadsBack
  dsimp only
  rw [hchained]
  unfold plainJson plainReader
  dsimp only
  exact if_pos (Eq.refl _)

theorem plainJson_readsBack_event {bundle : EvidenceBundle} (observedAtMono : ℕ)
    (payload : PlainPayload) (hsequence : bundle.nextReplaySequence = 0)
    (hhead : bundle.replayChainHead = .replicate 32 0) :
    ReadsBack (plainJson observedAtMono payload) bundle (.replayEvent observedAtMono payload) := by
  have hpreimage : bundle.preimage (plainJson observedAtMono payload) observedAtMono payload =
      EvidenceBundle.create.preimage plainWriter observedAtMono payload := by
    unfold EvidenceBundle.preimage
    rw [hsequence, hhead]
    rfl
  unfold ReadsBack
  dsimp only
  rw [hpreimage, hsequence, hhead]
  generalize hvalue : EvidenceBundle.create.preimage plainWriter observedAtMono payload = preimage
  have hpersisted : persisted (plainJson observedAtMono payload) preimage =
      persisted plainWriter preimage := rfl
  have hhash : deriveReplayEventHashV2 (plainJson observedAtMono payload) preimage =
      deriveReplayEventHashV2 plainWriter preimage := rfl
  have htext : (plainJson observedAtMono payload).valueText = plainWriter.valueText := rfl
  rw [hpersisted, hhash, htext]
  unfold plainJson plainReader
  dsimp only
  rw [hvalue, if_pos rfl, if_pos rfl]
  exact ⟨rfl, _, rfl, rfl, rfl, rfl, id⟩

theorem plainJson_runReadsBack (observedAtMono : ℕ) (payload : PlainPayload) :
    RunReadsBack (plainJson observedAtMono payload) .create
      [.checkpoint idlePayload, .replayEvent observedAtMono payload] := by
  have hcheckpoint := plainJson_readsBack_checkpoint observedAtMono payload
  refine ⟨hcheckpoint, fun next hnext => ⟨?_, fun _ _ => trivial⟩⟩
  obtain ⟨-, -, hsequence, hhead⟩ := callEvidence_checkpoint hcheckpoint hnext
  exact plainJson_readsBack_event observedAtMono payload hsequence hhead

variable {observedAtMono : ℕ} {payload : PlainPayload} {line : String}

theorem plainJson_readCheckpoint {checkpoint : ChainedCheckpoint}
    (h : (plainJson observedAtMono payload).readCheckpoint line = .ok checkpoint) :
    checkpoint = EvidenceBundle.create.chained plainWriter idlePayload := by
  unfold plainJson plainReader at h
  dsimp only at h
  split at h
  · exact (Except.ok.inj h).symm
  · cases h

theorem plainJson_readValue {value : JsonValue}
    (h : (plainJson observedAtMono payload).readValue line = .ok value) :
    value = persisted plainWriter
      (EvidenceBundle.create.preimage plainWriter observedAtMono payload) := by
  unfold plainJson plainReader at h
  dsimp only at h
  split at h
  · exact (Except.ok.inj h).symm
  · cases h

theorem plainJson_readEvent {event : ReplayEvent Empty Empty Empty}
    (h : (plainJson observedAtMono payload).readEvent line = .ok event) :
    event.sequence = 0 ∧ event.payload = payload ∧
      event.previousHash = hex32 (.replicate 32 0) := by
  unfold plainJson plainReader at h
  dsimp only at h
  split at h
  · cases h
    exact ⟨rfl, rfl, rfl⟩
  · cases h

theorem plainJson_storedFields {stored : String} {preimage : List (String × JsonValue)}
    (h : storedFields (plainJson observedAtMono payload) line = .ok (stored, preimage)) :
    preimage = EvidenceBundle.create.preimage plainWriter observedAtMono payload := by
  obtain ⟨fields, hvalue, hremoved⟩ := storedFields_eq_ok_iff.mp h
  cases plainJson_readValue hvalue
  exact (removeEventHash_eq_some_iff.mp hremoved).2.symm

theorem plainJson_readsAlike : ReadsAlike (plainJson observedAtMono payload) where
  sorted := by
    intro line fields h
    cases plainJson_readValue h
    have hkeys : ["event_hash", "observed_at_mono", "payload", "previous_hash",
        "sequence"].Pairwise (· < ·) := by decide
    exact List.pairwise_map.mp hkeys
  bounded := by
    intro line event h
    rw [(plainJson_readEvent h).1]
    exact Nat.zero_le _
  sequence := by
    intro line fields event h hevent
    cases plainJson_readValue h
    rw [(plainJson_readEvent hevent).1]
    rfl
  previousHash := by
    intro line fields event h hevent
    cases plainJson_readValue h
    rw [(plainJson_readEvent hevent).2.2]
    rfl

theorem plainJson_checkpointsApart (lines lines' : List String) :
    CheckpointsApart (plainJson observedAtMono payload) lines lines' := by
  constructor
  · intro line _ line' _ checkpoint checkpoint' h h' _
    rw [plainJson_readCheckpoint h, plainJson_readCheckpoint h']
  · rintro a b ⟨line, -, checkpoint, previous, h, hprevious, rfl⟩
      ⟨line', -, checkpoint', previous', h', hprevious', rfl⟩ _
    obtain rfl := (plainJson_readCheckpoint h).trans (plainJson_readCheckpoint h').symm
    rw [hex32_inj.mp (hprevious.symm.trans hprevious')]

theorem plainJson_eventsApart (lines lines' : List String) :
    EventsApart (plainJson observedAtMono payload) lines lines' := by
  constructor
  · intro line _ line' _ stored stored' preimage preimage' h h' _
    rw [plainJson_storedFields h, plainJson_storedFields h']
  · rintro a b ⟨line, -, stored, preimage, h, rfl⟩ ⟨line', -, stored', preimage', h', rfl⟩ _
    rw [plainJson_storedFields h, plainJson_storedFields h']

theorem exists_bundle (json : SerdeJson Empty Empty Empty) (checkpoint : CheckpointPayload)
    (observedAtMono : ℕ) (payload : PlainPayload) :
    ∃ bundle, [EvidenceCall.checkpoint checkpoint, .replayEvent observedAtMono payload].foldlM
      (callEvidence json) .create = .ok bundle ∧ bundle.checkpoints ≠ [] ∧
        ∃ line, bundle.replayEvents = [line] :=
  ⟨_, rfl, by simp, _, rfl⟩

end

def contextPayload : PlainPayload :=
  .runContext replayChainVersion replayCanonicalization "00" "11" "22" "33" "44"

theorem evidence_chains_tamper_evident_context :
    let sha : Sha256 := ⟨prefixDigest⟩
    let json := plainJson 5 contextPayload
    ∃ bundle : EvidenceBundle,
      verifyCheckpointChain json bundle.checkpoints = .ok (hex32 bundle.chainHead) ∧
      verifyReplayEventChain json bundle.replayEvents = .ok (hex32 bundle.replayChainHead) ∧
      (∀ lines, verifyCheckpointChain json lines = .ok (hex32 bundle.chainHead) →
        bundle.checkpoints.map json.readCheckpoint = lines.map json.readCheckpoint) ∧
      ∀ lines, verifyReplayEventChain json lines = .ok (hex32 bundle.replayChainHead) →
        bundle.replayEvents.map json.readValue = lines.map json.readValue := by
  intro _ json
  obtain ⟨bundle, hrun, hcheckpoints, line, hevents⟩ :=
    exists_bundle json idlePayload 5 contextPayload
  obtain ⟨hwritten, hcommitted, hcommitted'⟩ := evidence_chains_tamper_evident json
  obtain ⟨haccepted, haccepted'⟩ := hwritten _ bundle hrun (plainJson_runReadsBack 5 contextPayload)
  have hcheckpoint := haccepted hcheckpoints
  have hcontext : checkContext contextPayload = .ok () := by
    unfold contextPayload checkContext
    dsimp only
    rw [if_neg (by simp)]
  have hevent := haccepted' (by simp [hevents]) hcontext
  refine ⟨bundle, hcheckpoint, hevent, ?_, ?_⟩
  · intro lines h
    exact hcommitted _ lines _ (plainJson_checkpointsApart _ _) hcheckpoint h
  · intro lines h
    exact hcommitted' _ lines _ plainJson_readsAlike (plainJson_eventsApart _ _) hevent h

/-- A journal that begins with a decision tick is written and not accepted. -/
theorem journal_without_context_refused :
    ¬ ∀ (_ : Sha256) (json : SerdeJson Empty Empty Empty)
      (calls : List (EvidenceCall Empty Empty Empty)) (bundle : EvidenceBundle),
        calls.foldlM (callEvidence json) .create = .ok bundle → RunReadsBack json .create calls →
          bundle.replayEvents ≠ [] →
            ∃ head, verifyReplayEventChain json bundle.replayEvents = .ok head := by
  intro h
  let _ : Sha256 := ⟨prefixDigest⟩
  obtain ⟨bundle, hrun, -, line, hevents⟩ :=
    exists_bundle (plainJson 5 .decisionTick) idlePayload 5 .decisionTick
  obtain ⟨head, hhead⟩ := h _ _ _ bundle hrun (plainJson_runReadsBack 5 .decisionTick)
    (by simp [hevents])
  obtain ⟨loaded, hfold, -⟩ := verifyReplayEventChain_eq_ok_iff.mp hhead
  rw [hevents] at hfold
  obtain ⟨next, hstep, -⟩ := foldlM_cons_eq_ok_iff.mp hfold
  obtain ⟨stored, preimage, event, hloads, -⟩ := loadReplayEvent_eq_ok_iff.mp hstep
  have hfirst : checkContext event.payload = .ok () := hloads.first
  rw [(plainJson_readEvent hloads.reads).2.1] at hfirst
  cases hfirst

end CopyTrade.Analysis
