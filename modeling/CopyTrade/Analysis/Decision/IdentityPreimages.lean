import CopyTrade.Analysis.Decision.JsonBytes
import CopyTrade.Model.WholeDecimal

/-!
# The pre-images of the identities

Two calls of the functions that derive identities feed SHA-256 the same bytes only when they are
the same function on the same value.  The domains are told apart by their first bytes; behind the
domain each field is a prefix code, so a pre-image is decoded field by field.
-/

namespace CopyTrade.Analysis

open Foundation Model
open Std (ExtTreeMap ExtTreeSet)

inductive IdentityDomain
  | snapshotSet
  | eligibility
  | decision
  | plannedCloid
  | targetVector
  | config
  | riskPolicy
  | projection
deriving DecidableEq

def IdentityDomain.bytes : IdentityDomain → List UInt8
  | .snapshotSet => textBytes "HL1E/SNAPSHOT_SET/V1"
  | .eligibility => textBytes "HL1E/ELIGIBILITY/V1"
  | .decision => textBytes "HL1E/DECISION/V1"
  | .plannedCloid => textBytes "HL1E/PLANNED_CLOID/V1"
  | .targetVector => textBytes "HL1E/TARGET_VECTOR/V1"
  | .config => textBytes "HL1E/CONFIG/V1"
  | .riskPolicy => textBytes "HL1E/RISK_POLICY/V1"
  | .projection => textBytes "LIVE/PORTFOLIO_PROJECTION/V1"

theorem domain_eq_of_append {d e : IdentityDomain} {x y : List UInt8}
    (h : d.bytes ++ x = e.bytes ++ y) : d = e := by
  have hlength : ∀ d : IdentityDomain, 7 ≤ d.bytes.length := by
    intro d
    cases d <;> decide +kernel
  have hfirst := congrArg (List.take 7) h
  rw [List.take_append_of_le_length (hlength d), List.take_append_of_le_length (hlength e)] at hfirst
  revert hfirst
  cases d <;> cases e <;> decide +kernel

theorem eq_of_domain {domain p q : List UInt8} {ε : Type}
    (h : (Except.ok (domain ++ q) : Except ε (List UInt8)) = .ok (domain ++ p)) : p = q :=
  (List.append_cancel_left (Except.ok.inj h)).symm

theorem prefixCode_snapshotMember :
    PrefixCode (fun member p => snapshotMember member = .ok p) Eq := by
  refine (prefixCode_string.pair (prefixCode_u64.pair ((prefixCode_bytes 32).pair
    (prefixCode_u64.pair prefixCode_u64)))).comap
    (fun m => (m.candidateId, m.acceptedSequence, m.payloadHash, m.receivedAtMono,
      m.validUntilMono)) (fun m p h => ?_) fun m n h => ?_
  · unfold snapshotMember at h
    split at h
    · cases h
    · obtain ⟨candidate, hcandidate, h⟩ := of_bind h
      cases h
      exact ⟨candidate, _, checked_eq_ok_iff.mp hcandidate, ⟨_, _, rfl, ⟨_, _, rfl, ⟨_, _, rfl, rfl,
        rfl⟩, rfl⟩, rfl⟩, by simp only [List.append_assoc]⟩
  · cases m
    cases n
    simp_all

theorem prefixCode_snapshotSet : PrefixCode
    (fun members p => snapshotSetBytes members = .ok (IdentityDomain.snapshotSet.bytes ++ p))
    List.Perm := by
  refine (prefixCode_length.counted prefixCode_snapshotMember).comap sortMembers
    (fun members p h => ?_) fun members members' h => ?_
  · unfold snapshotSetBytes at h
    dsimp only at h
    split at h
    · cases h
    · obtain ⟨c, hc, h⟩ := of_bind h
      obtain ⟨q, hq, h⟩ := of_bind h
      rw [List.append_assoc] at h
      exact ⟨c, q, checked_eq_ok_iff.mp hc, writesAll_of_each hq, eq_of_domain h⟩
  · rw [List.forall₂_eq_eq_eq] at h
    have hleft : (sortMembers members).Perm members := List.mergeSort_perm members _
    have hright : (sortMembers members').Perm members' := List.mergeSort_perm members' _
    exact hleft.symm.trans (h ▸ hright)

theorem prefixCode_exclusion : PrefixCode (fun entry p => exclusion entry = .ok p) Eq := by
  have hcode : PrefixCode (fun (reason : ExclusionReason) p => p = [reason.code]) Eq := by
    apply prefixCode_of_length (n := 1)
    · rintro reason p rfl
      rfl
    · rintro a b p rfl h
      cases a <;> cases b <;> first | rfl | cases (List.cons.inj h).1
  refine (prefixCode_string.pair hcode).comap id (fun entry p h => ?_) fun entry entry' h =>
    Prod.ext h.1 h.2
  obtain ⟨candidate, hcandidate, h⟩ := of_bind h
  cases h
  exact ⟨candidate, _, checked_eq_ok_iff.mp hcandidate, rfl, rfl⟩

theorem prefixCode_eligibility : PrefixCode
    (fun summary p => eligibilityBytes summary = .ok (IdentityDomain.eligibility.bytes ++ p)) Eq := by
  refine ((prefixCode_length.counted prefixCode_string).pair
    (prefixCode_length.counted prefixCode_exclusion)).comap
    (fun summary => (summary.activeIds.toList, summary.excluded.toList))
    (fun summary p h => ?_) fun summary summary' h => ?_
  · unfold eligibilityBytes at h
    split at h
    · cases h
    · obtain ⟨c, hc, h⟩ := of_bind h
      obtain ⟨q, hq, h⟩ := of_bind h
      obtain ⟨c', hc', h⟩ := of_bind h
      obtain ⟨q', hq', h⟩ := of_bind h
      rw [← ExtTreeSet.length_toList] at hc
      rw [← ExtTreeMap.length_toList] at hc'
      rw [List.append_assoc, List.append_assoc, List.append_assoc] at h
      refine ⟨c ++ q, c' ++ q', ⟨c, q, checked_eq_ok_iff.mp hc,
        (writesAll_of_each hq).imp fun _ _ => checked_eq_ok_iff.mp, rfl⟩,
        ⟨c', q', checked_eq_ok_iff.mp hc', writesAll_of_each hq', rfl⟩, ?_⟩
      rw [eq_of_domain h, List.append_assoc]
  · obtain ⟨hactive, hexcluded⟩ := h
    rw [List.forall₂_eq_eq_eq] at hactive hexcluded
    cases summary
    cases summary'
    dsimp only at hactive hexcluded
    congr 1
    · exact ExtTreeSet.ext_toList (hactive ▸ .refl _)
    · exact ExtTreeMap.ext_toList (hexcluded ▸ .refl _)

theorem prefixCode_decision : PrefixCode
    (fun input p => decisionBytes input = IdentityDomain.decision.bytes ++ p) Eq := by
  refine ((prefixCode_bytes 16).pair (prefixCode_u64.pair ((prefixCode_bytes 32).pair
    ((prefixCode_bytes 32).pair ((prefixCode_bytes 32).pair ((prefixCode_bytes 32).pair
      ((prefixCode_bytes 32).pair prefixCode_u64))))))).comap
    (fun i => (i.engineInstanceId, i.decisionSequence, i.configHash, i.riskPolicyHash,
      i.snapshotSetId, i.eligibilityHash, i.marketSnapshotId, i.targetVersion))
    (fun i p h => ?_) fun i j h => ?_
  · unfold decisionBytes at h
    simp only [List.append_assoc] at h
    exact ⟨_, _, rfl, ⟨_, _, rfl, ⟨_, _, rfl, ⟨_, _, rfl, ⟨_, _, rfl, ⟨_, _, rfl, ⟨_, _, rfl, rfl,
      rfl⟩, rfl⟩, rfl⟩, rfl⟩, rfl⟩, rfl⟩, (List.append_cancel_left h).symm⟩
  · cases i
    cases j
    simp_all

theorem prefixCode_plannedCloid : PrefixCode
    (fun input p => plannedCloidBytes input = .ok (IdentityDomain.plannedCloid.bytes ++ p)) Eq := by
  have hside : PrefixCode (fun (side : Side) p => p = [side.code]) Eq := by
    apply prefixCode_of_length (n := 1)
    · rintro side p rfl
      rfl
    · rintro a b p rfl h
      cases a <;> cases b <;> first | rfl | cases (List.cons.inj h).1
  have hflag : PrefixCode (fun (flag : Bool) p => p = [flag.toUInt8]) Eq := by
    apply prefixCode_of_length (n := 1)
    · rintro flag p rfl
      rfl
    · rintro a b p rfl h
      cases a <;> cases b <;> first | rfl | cases (List.cons.inj h).1
  refine ((prefixCode_bytes 16).pair ((prefixCode_bytes 32).pair (prefixCode_u64.pair
    (prefixCode_string.pair (hside.pair (hflag.pair
      (prefixCode_u32.pair prefixCode_u32))))))).comap
    (fun i => (i.engineInstanceId, i.decisionId, i.targetVersion, i.asset, i.side, i.reduceOnly,
      i.actionOrdinal, i.retryGeneration)) (fun i p h => ?_) fun i j h => ?_
  · unfold plannedCloidBytes at h
    split at h
    · cases h
    · obtain ⟨asset, hasset, h⟩ := of_bind h
      simp only [List.append_assoc] at h
      exact ⟨_, _, rfl, ⟨_, _, rfl, ⟨_, _, rfl, ⟨asset, _, checked_eq_ok_iff.mp hasset,
        ⟨_, _, rfl, ⟨_, _, rfl, ⟨_, _, rfl, rfl, rfl⟩, rfl⟩, rfl⟩, rfl⟩, rfl⟩, rfl⟩,
        eq_of_domain h⟩
  · cases i
    cases j
    simp_all

section

variable {D : Type} [Decimal D] [DecimalText D] [DecimalNormalize D] [DecimalNormalizeLaws D]

omit [DecimalText D] in
theorem prefixCode_targetVector : PrefixCode
    (fun (targets : ExtTreeMap String D) p =>
      targetBytes targets = .ok (IdentityDomain.targetVector.bytes ++ p)) (SameEntries SameValue) := by
  refine (prefixCode_length.counted (prefixCode_string.pair prefixCode_decimal)).comap
    ExtTreeMap.toList (fun targets p h => ?_) fun _ _ => sameEntries_of_forall₂
  obtain ⟨c, hc, h⟩ := of_bind h
  obtain ⟨q, hq, h⟩ := of_bind h
  rw [← ExtTreeMap.length_toList] at hc
  rw [List.append_assoc] at h
  refine ⟨c, q, checked_eq_ok_iff.mp hc, (writesAll_of_each hq).imp fun entry p hentry => ?_,
    eq_of_domain h⟩
  obtain ⟨asset, hasset, hentry⟩ := of_bind hentry
  cases hentry
  exact ⟨asset, _, checked_eq_ok_iff.mp hasset, rfl, rfl⟩

/-- Two projections have the same values everywhere. -/
structure SameProjection (a b : PortfolioProjection D) : Prop where
  constrainedTargets : SameEntries SameValue a.constrainedTargets b.constrainedTargets
  proposedDeltas : SameEntries SameValue a.proposedDeltas b.proposedDeltas
  roundedDeltas : SameEntries SameValue a.roundedDeltas b.roundedDeltas
  projectedRanges : SameEntries SameRange a.projectedRanges b.projectedRanges
  maximumProjectedGross : SameValue a.maximumProjectedGross b.maximumProjectedGross
  minimumProjectedNet : SameValue a.minimumProjectedNet b.minimumProjectedNet
  maximumProjectedNet : SameValue a.maximumProjectedNet b.maximumProjectedNet

theorem prefixCode_projection : PrefixCode
    (fun (projection : PortfolioProjection D) p =>
      projectionBytes projection = some (IdentityDomain.projection.bytes ++ p)) SameProjection := by
  refine (prefixCode_decimalMap.pair (prefixCode_decimalMap.pair (prefixCode_decimalMap.pair
    (prefixCode_ranges.pair (prefixCode_normalizedText.pair (prefixCode_normalizedText.pair
      prefixCode_normalizedText)))))).comap
    (fun i => (i.constrainedTargets, i.proposedDeltas, i.roundedDeltas, i.projectedRanges,
      i.maximumProjectedGross, i.minimumProjectedNet, i.maximumProjectedNet))
    (fun i p h => ?_) fun i j h => ?_
  · obtain ⟨constrained, hconstrained, h⟩ := Option.bind_eq_some_iff.mp h
    obtain ⟨proposed, hproposed, h⟩ := Option.bind_eq_some_iff.mp h
    obtain ⟨rounded, hrounded, h⟩ := Option.bind_eq_some_iff.mp h
    obtain ⟨ranges, hranges, h⟩ := Option.bind_eq_some_iff.mp h
    obtain ⟨gross, hgross, h⟩ := Option.bind_eq_some_iff.mp h
    obtain ⟨minimum, hminimum, h⟩ := Option.bind_eq_some_iff.mp h
    obtain ⟨maximum, hmaximum, h⟩ := Option.bind_eq_some_iff.mp h
    have h := Option.some.inj h
    simp only [List.append_assoc] at h
    exact ⟨constrained, _, hconstrained, ⟨proposed, _, hproposed, ⟨rounded, _, hrounded,
      ⟨ranges, _, hranges, ⟨gross, _, hgross, ⟨minimum, maximum, hminimum, hmaximum, rfl⟩, rfl⟩,
      rfl⟩, rfl⟩, rfl⟩, (List.append_cancel_left h).symm⟩
  · obtain ⟨h1, h2, h3, h4, h5, h6, h7⟩ := h
    exact ⟨h1, h2, h3, h4, h5, h6, h7⟩

def domainOf : ValueDomain → IdentityDomain
  | .config => .config
  | .riskPolicy => .riskPolicy

theorem prefixCode_canonicalValue (domain : ValueDomain) : PrefixCode
    (fun value p => canonicalValueBytes domain value = .ok ((domainOf domain).bytes ++ p))
    SameJson := by
  have hvalue : PrefixCode (fun value p => JsonValue.encode value = .ok p) SameJson :=
    fun value _ _ _ _ _ hv hw h => toldApart value hv hw h
  refine hvalue.comap id (fun value p h => ?_) fun _ _ h => h
  obtain ⟨encoded, hencoded, h⟩ := of_bind h
  have hdomain : domain.bytes = (domainOf domain).bytes := by cases domain <;> rfl
  rw [hdomain] at h
  rw [eq_of_domain h]
  exact hencoded

inductive IdentityCall (D : Type)
  | snapshotSetId (members : List SnapshotSetMember)
  | eligibilityHash (summary : SourceEligibilitySummary)
  | decisionId (input : DecisionIdentityInput)
  | targetHash (targets : ExtTreeMap String D)
  | projectionHash (projection : PortfolioProjection D)
  | plannedCloid (input : PlannedCloidInput)
  | canonicalValue (domain : ValueDomain) (value : JsonValue)

/-- The bytes that the call feeds SHA-256, when it accepts its input. -/
def IdentityCall.preimage : IdentityCall D → Except IdentityError (List UInt8)
  | .snapshotSetId members => snapshotSetBytes members
  | .eligibilityHash summary => eligibilityBytes summary
  | .decisionId input => .ok (decisionBytes input)
  | .targetHash targets => targetBytes targets
  | .projectionHash projection => Canonical.checked (projectionBytes projection)
  | .plannedCloid input => plannedCloidBytes input
  | .canonicalValue domain value => canonicalValueBytes domain value

/-- The same function on equal values: members up to their order, decimals up to their scale and
JSON objects up to the order of their fields. -/
def SameCall : IdentityCall D → IdentityCall D → Prop
  | .snapshotSetId members, .snapshotSetId members' => members.Perm members'
  | .eligibilityHash summary, .eligibilityHash summary' => summary = summary'
  | .decisionId input, .decisionId input' => input = input'
  | .targetHash targets, .targetHash targets' => SameEntries SameValue targets targets'
  | .projectionHash projection, .projectionHash projection' => SameProjection projection projection'
  | .plannedCloid input, .plannedCloid input' => input = input'
  | .canonicalValue domain value, .canonicalValue domain' value' =>
    domain = domain' ∧ SameJson value value'
  | _, _ => False

def IdentityCall.domain : IdentityCall D → IdentityDomain
  | .snapshotSetId _ => .snapshotSet
  | .eligibilityHash _ => .eligibility
  | .decisionId _ => .decision
  | .targetHash _ => .targetVector
  | .projectionHash _ => .projection
  | .plannedCloid _ => .plannedCloid
  | .canonicalValue domain _ => domainOf domain

omit [DecimalText D] [DecimalNormalizeLaws D] in
theorem preimage_eq_domain {call : IdentityCall D} {bytes : List UInt8}
    (h : call.preimage = .ok bytes) : ∃ rest, bytes = call.domain.bytes ++ rest := by
  cases call with
  | snapshotSetId members =>
    unfold IdentityCall.preimage snapshotSetBytes at h
    dsimp only at h
    split at h
    · cases h
    · obtain ⟨_, -, h⟩ := of_bind h
      obtain ⟨_, -, h⟩ := of_bind h
      cases h
      exact ⟨_, List.append_assoc _ _ _⟩
  | eligibilityHash summary =>
    unfold IdentityCall.preimage eligibilityBytes at h
    dsimp only at h
    split at h
    · cases h
    · obtain ⟨_, -, h⟩ := of_bind h
      obtain ⟨_, -, h⟩ := of_bind h
      obtain ⟨_, -, h⟩ := of_bind h
      obtain ⟨_, -, h⟩ := of_bind h
      cases h
      simp only [List.append_assoc]
      exact ⟨_, rfl⟩
  | decisionId input =>
    cases h
    unfold decisionBytes
    simp only [List.append_assoc]
    exact ⟨_, rfl⟩
  | targetHash targets =>
    obtain ⟨_, -, h⟩ := of_bind h
    obtain ⟨_, -, h⟩ := of_bind h
    cases h
    exact ⟨_, List.append_assoc _ _ _⟩
  | projectionHash projection =>
    have h := checked_eq_ok_iff.mp h
    obtain ⟨_, -, h⟩ := Option.bind_eq_some_iff.mp h
    obtain ⟨_, -, h⟩ := Option.bind_eq_some_iff.mp h
    obtain ⟨_, -, h⟩ := Option.bind_eq_some_iff.mp h
    obtain ⟨_, -, h⟩ := Option.bind_eq_some_iff.mp h
    obtain ⟨_, -, h⟩ := Option.bind_eq_some_iff.mp h
    obtain ⟨_, -, h⟩ := Option.bind_eq_some_iff.mp h
    obtain ⟨_, -, h⟩ := Option.bind_eq_some_iff.mp h
    cases h
    simp only [List.append_assoc]
    exact ⟨_, rfl⟩
  | plannedCloid input =>
    unfold IdentityCall.preimage plannedCloidBytes at h
    dsimp only at h
    split at h
    · cases h
    · obtain ⟨_, -, h⟩ := of_bind h
      cases h
      simp only [List.append_assoc]
      exact ⟨_, rfl⟩
  | canonicalValue domain value =>
    obtain ⟨_, -, h⟩ := of_bind h
    cases h
    cases domain <;> exact ⟨_, rfl⟩

/-- **The pre-images of the identities are injective.** -/
theorem identity_preimage_injective {call call' : IdentityCall D} {bytes : List UInt8}
    (h : call.preimage = .ok bytes) (h' : call'.preimage = .ok bytes) : SameCall call call' := by
  obtain ⟨p, rfl⟩ := preimage_eq_domain h
  obtain ⟨q, heq⟩ := preimage_eq_domain h'
  have hdomain := domain_eq_of_append heq
  cases call with
  | snapshotSetId members =>
    cases call' with
    | snapshotSetId members' => exact (prefixCode_snapshotSet h h' (x := []) (y := []) rfl).1
    | canonicalValue domain => cases domain <;> cases hdomain
    | _ => cases hdomain
  | eligibilityHash summary =>
    cases call' with
    | eligibilityHash summary' => exact (prefixCode_eligibility h h' (x := []) (y := []) rfl).1
    | canonicalValue domain => cases domain <;> cases hdomain
    | _ => cases hdomain
  | decisionId input =>
    cases call' with
    | decisionId input' =>
      exact (prefixCode_decision (Except.ok.inj h) (Except.ok.inj h') (x := []) (y := []) rfl).1
    | canonicalValue domain => cases domain <;> cases hdomain
    | _ => cases hdomain
  | targetHash targets =>
    cases call' with
    | targetHash targets' => exact (prefixCode_targetVector h h' (x := []) (y := []) rfl).1
    | canonicalValue domain => cases domain <;> cases hdomain
    | _ => cases hdomain
  | projectionHash projection =>
    cases call' with
    | projectionHash projection' =>
      exact (prefixCode_projection (checked_eq_ok_iff.mp h) (checked_eq_ok_iff.mp h') (x := [])
        (y := []) rfl).1
    | canonicalValue domain => cases domain <;> cases hdomain
    | _ => cases hdomain
  | plannedCloid input =>
    cases call' with
    | plannedCloid input' => exact (prefixCode_plannedCloid h h' (x := []) (y := []) rfl).1
    | canonicalValue domain => cases domain <;> cases hdomain
    | _ => cases hdomain
  | canonicalValue domain value =>
    cases call' with
    | canonicalValue domain' value' =>
      have hsame : domain = domain' := by
        cases domain <;> cases domain' <;> first | rfl | cases hdomain
      subst hsame
      exact ⟨rfl, (prefixCode_canonicalValue domain h h' (x := []) (y := []) rfl).1⟩
    | _ => cases domain <;> cases hdomain

end

theorem sortMembers_pair (left right : SnapshotSetMember) : sortMembers [left, right] =
    if (compare left.candidateId right.candidateId).isLE then [left, right] else [right, left] := by
  simp [sortMembers, List.mergeSort, List.MergeSort.Internal.splitInTwo, List.splitAt,
    List.splitAt.go, List.merge]

theorem identity_preimage_injective_order :
    let first : SnapshotSetMember := ⟨"a", 1, Bytes.replicate 32 1, 5, 9⟩
    let second : SnapshotSetMember := ⟨"b", 2, Bytes.replicate 32 2, 6, 9⟩
    SameCall (D := BoundedWhole) (.snapshotSetId [first, second])
      (.snapshotSetId [second, first]) := by
  intro first second
  have hsorted : sortMembers [first, second] = [first, second] ∧
      sortMembers [second, first] = [first, second] := by
    rw [sortMembers_pair, sortMembers_pair]
    decide +kernel
  have hsame : snapshotSetBytes [second, first] = snapshotSetBytes [first, second] := by
    unfold snapshotSetBytes
    rw [hsorted.1, hsorted.2]
  have hok : (snapshotSetBytes [first, second]).toBool = true := by
    unfold snapshotSetBytes
    rw [hsorted.1]
    decide +kernel
  cases h : snapshotSetBytes [first, second] with
  | ok bytes => exact identity_preimage_injective h (hsame.trans h)
  | error e =>
    rw [h] at hok
    cases hok

end CopyTrade.Analysis
