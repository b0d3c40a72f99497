import CopyTrade.Foundation.MessagePack
import CopyTrade.Model.Core.Frame
import CopyTrade.Model.Core.Messages
import CopyTrade.Model.WholeDecimal

/-!
# Frames are read exactly

A message is framed exactly when it can be serialized (`transmits_iff`): neither `Reconcile`, whose
cloid is a tuple, nor `ReconciliationEvents`, whose content is a sequence, has room for its tag.
Whatever is framed is read back with its sequence, its message and the digest of its payload, and
whatever is read as a frame is the header that the encoder writes for its payload, followed by the
payload (`frames_exact`).  A stream that starts with such a frame gives up its bytes and no others.
-/

namespace CopyTrade.Analysis

open Foundation Model Model.Derived

section

variable {T : Type} [Sha256] [MessagePack]

/-- The frame of the message fits into `maximumFrameBytes` and its length into the header. -/
def FrameFits (serialize : T → Except String Value) (message : T) (maximumFrameBytes : ℕ) : Prop :=
  ∀ value, serialize message = .ok value →
    ipcHeaderBytes + (framedPayload value).length ≤ maximumFrameBytes ∧
      (framedPayload value).length < 2 ^ 32

/-- Under every message type, sequence and sufficient limit the message is framed, and its
frame is decoded as the message. -/
def Transmits (serialize : T → Except String Value) (deserialize : Content → Except String T)
    (message : T) : Prop :=
  ∀ messageType sequence maximumFrameBytes, messageType < 2 ^ 16 → sequence < 2 ^ 64 →
    FrameFits serialize message maximumFrameBytes →
      ∃ bytes, encodeFrame serialize messageType sequence message maximumFrameBytes = .ok bytes ∧
        ∃ frame, decodeFrame deserialize bytes messageType maximumFrameBytes = .ok frame ∧
          frame.sequence = sequence ∧ frame.message = message

theorem transmits_iff [LawfulMessagePack] {serialize : T → Except String Value}
    {deserialize : Content → Except String T} {message : T}
    (hround : ∀ value, serialize message = .ok value →
      deserialize (compact value) = .ok message) :
    Transmits serialize deserialize message ↔ ∃ value, serialize message = .ok value := by
  constructor
  · intro h
    cases hvalue : serialize message with
    | ok value => exact ⟨value, rfl⟩
    | error reason =>
      have hfits : FrameFits serialize message 0 := by
        intro value hok
        rw [hvalue] at hok
        cases hok
      obtain ⟨bytes, hbytes, -⟩ := h 0 0 0 (by norm_num) (by norm_num) hfits
      rw [encodeFrame_eq_error hvalue] at hbytes
      cases hbytes
  · rintro ⟨value, hvalue⟩ messageType sequence maximumFrameBytes htype hsequence hfits
    obtain ⟨htotal, hlength⟩ := hfits value hvalue
    refine ⟨_, encodeFrame_eq hvalue htotal hlength messageType sequence, ?_⟩
    have hmessage : (MessagePack.fromSlice (framedPayload value) >>= deserialize) =
        .ok message := by
      unfold framedPayload
      rw [LawfulMessagePack.fromSlice_toVec, ok_bind, hround value hvalue]
    exact ⟨_, decodeFrame_frame deserialize hmessage htype hsequence htotal hlength, rfl, rfl⟩

end

section

variable {D : Type} [Decimal D] [DecimalText D]

theorem observerRequestVariants_nodup :
    ((observerRequestVariants : List (Variant (ObserverRequest D))).map Variant.name).Nodup := by
  simp [observerRequestVariants, Variant.of]

theorem signerResponseVariants_nodup :
    ((signerResponseVariants : List (Variant (SignerResponse D))).map Variant.name).Nodup := by
  simp [signerResponseVariants, Variant.of]

theorem observerRequest_serializes_iff (request : ObserverRequest D) :
    (∃ value, serializeTagged "type" observerRequestVariants request = .ok value) ↔
      ∀ cloid, request ≠ .reconcile cloid := by
  cases request with
  | reconcile cloid =>
    constructor
    · rintro ⟨value, hvalue⟩
      cases hvalue
    · intro h
      exact absurd rfl (h cloid)
  | _ =>
    constructor
    · rintro - cloid hreconcile
      cases hreconcile
    · intro _
      exact ⟨_, rfl⟩

theorem signerResponse_serializes_iff (response : SignerResponse D) :
    (∃ value, serializeTagged "type" signerResponseVariants response = .ok value) ↔
      ∀ events, response ≠ .reconciliationEvents events := by
  cases response with
  | reconciliationEvents events =>
    constructor
    · rintro ⟨value, hvalue⟩
      cases hvalue
    · intro h
      exact absurd rfl (h events)
  | _ =>
    constructor
    · rintro - events hevents
      cases hevents
    · intro _
      exact ⟨_, rfl⟩

variable [Sha256] [MessagePack]

def RequestTransmits (request : ObserverRequest D) : Prop :=
  Transmits (serializeTagged "type" observerRequestVariants)
    (deserializeTagged "type" observerRequestVariants) request

def ResponseTransmits (response : SignerResponse D) : Prop :=
  Transmits (serializeTagged "type" signerResponseVariants)
    (deserializeTagged "type" signerResponseVariants) response

/-- **The messages that survive the wire** are the requests other than `Reconcile` and the responses
other than `ReconciliationEvents`. -/
theorem messages_transmit_iff [LawfulMessagePack] :
    (∀ request : ObserverRequest D,
      RequestTransmits request ↔ ∀ cloid, request ≠ .reconcile cloid) ∧
    ∀ response : SignerResponse D,
      ResponseTransmits response ↔ ∀ events, response ≠ .reconciliationEvents events := by
  constructor
  · intro request
    rw [← observerRequest_serializes_iff]
    exact transmits_iff fun value h => deserializeTagged_compact observerRequestVariants_nodup h
  · intro response
    rw [← signerResponse_serializes_iff]
    exact transmits_iff fun value h => deserializeTagged_compact signerResponseVariants_nodup h

end

theorem messages_transmit_iff_status :
    ∃ (_ : Sha256) (_ : MessagePack) (_ : LawfulMessagePack),
      MessagePack.toVec (compact (.struct [("type", .text "status")])) =
          [0x91, 0xa6, 0x73, 0x74, 0x61, 0x74, 0x75, 0x73] ∧
        RequestTransmits (.status : ObserverRequest ℤ) ∧
        ResponseTransmits (.status true true 7 : SignerResponse ℤ) := by
  let sha : Sha256 := ⟨prefixDigest⟩
  let codec : MessagePack := ⟨MessagePack.pack, MessagePack.parse⟩
  have lawful : LawfulMessagePack := ⟨MessagePack.parse_pack⟩
  exact ⟨sha, codec, lawful, by decide, (messages_transmit_iff.1 .status).mpr nofun,
    (messages_transmit_iff.2 (.status true true 7)).mpr nofun⟩

theorem reconcile_not_transmitted :
    ¬ ∀ [Sha256] [MessagePack] [LawfulMessagePack] (request : ObserverRequest ℤ),
      RequestTransmits request := by
  intro h
  let sha : Sha256 := ⟨prefixDigest⟩
  let codec : MessagePack := ⟨MessagePack.pack, MessagePack.parse⟩
  have lawful : LawfulMessagePack := ⟨MessagePack.parse_pack⟩
  have hfits : FrameFits (serializeTagged "type" (observerRequestVariants (D := ℤ)))
      (.reconcile (Bytes.replicate 16 7)) 4096 := by
    intro value hvalue
    cases hvalue
  obtain ⟨bytes, hbytes, -⟩ :=
    h (.reconcile (Bytes.replicate 16 7)) observerMessageType 1 4096 (by decide) (by norm_num) hfits
  cases hbytes

section

variable {bytes : List UInt8} {a b c n : ℕ}

theorem length_slice (h : b ≤ bytes.length) : (slice bytes a b).length = b - a := by
  unfold slice
  rw [List.length_drop, List.length_take, min_eq_left h]

theorem slice_append_slice (hab : a ≤ b) (hbc : b ≤ c) :
    slice bytes a b ++ slice bytes b c = slice bytes a c := by
  unfold slice
  have htake : bytes.take b = (bytes.take c).take b := by rw [List.take_take, min_eq_left hbc]
  have hdrop : (bytes.take c).drop b = ((bytes.take c).drop a).drop (b - a) := by
    rw [List.drop_drop, Nat.add_sub_cancel' hab]
  rw [htake, List.drop_take, hdrop, List.take_append_drop]

theorem slice_append_drop : slice bytes 0 c ++ bytes.drop c = bytes := by
  unfold slice
  rw [List.drop_zero, List.take_append_drop]

theorem slice_eq_bigEndian (hlength : b ≤ bytes.length) (hn : b - a = n) :
    slice bytes a b = bigEndian n (fromBigEndian (slice bytes a b)) := by
  have h := bigEndian_fromBigEndian (slice bytes a b)
  rw [length_slice hlength, hn] at h
  exact h.symm

theorem fromBigEndian_slice_lt (hlength : b ≤ bytes.length) (hn : b - a = n) :
    fromBigEndian (slice bytes a b) < 256 ^ n := by
  have h := fromBigEndian_lt (slice bytes a b)
  rwa [length_slice hlength, hn] at h

end

section

variable {T : Type} [Sha256] [MessagePack]

variable {bytes : List UInt8} {messageType : ℕ} {deserialize : Content → Except String T}
  {frame : DecodedFrame T}

theorem encodeFrame_eq_ok {serialize : T → Except String Value} {sequence maximumFrameBytes : ℕ}
    {message : T}
    (h : encodeFrame serialize messageType sequence message maximumFrameBytes = .ok bytes) :
    ∃ value, serialize message = .ok value ∧ (framedPayload value).length < 2 ^ 32 ∧
      ipcHeaderBytes + (framedPayload value).length ≤ maximumFrameBytes ∧
      bytes = frameHeader messageType sequence (framedPayload value) ++ framedPayload value := by
  cases hvalue : serialize message with
  | error reason =>
    rw [encodeFrame_eq_error hvalue] at h
    cases h
  | ok value =>
    refine ⟨value, rfl, ?_⟩
    unfold encodeFrame at h
    rw [hvalue] at h
    obtain ⟨v, hv, h⟩ := of_bind h
    cases hv
    dsimp only at h
    split at h
    · cases h
    · rename_i total htotal
      have hsum := (checkedAddU64_eq_some_iff.mp htotal).1
      split at h
      · cases h
      · rename_i hfits
        cases h
        unfold framedPayload
        exact ⟨by omega, by omega, rfl⟩

def wireFrame (messageType sequence : ℕ) (payload : List UInt8) : List UInt8 :=
  frameHeader messageType sequence payload ++ payload

omit [MessagePack] in
theorem length_wireFrame (messageType sequence : ℕ) (payload : List UInt8) :
    (wireFrame messageType sequence payload).length = ipcHeaderBytes + payload.length := by
  unfold wireFrame
  rw [List.length_append, length_frameHeader]

/-- The bytes of a frame around the payload: the encoder's header with the sequence, the type and
the length, then the payload, within the limit; the digest and the message are the payload's. -/
structure FramesPayload (deserialize : Content → Except String T) (bytes : List UInt8)
    (messageType maximumFrameBytes : ℕ) (frame : DecodedFrame T) (payload : List UInt8) :
    Prop where
  bytes_eq : bytes = wireFrame messageType frame.sequence payload
  sequence_lt : frame.sequence < 2 ^ 64
  payload_lt : payload.length < 2 ^ 32
  length_le : bytes.length ≤ maximumFrameBytes
  payloadHash_eq : frame.payloadHash = Sha256.digest payload
  message_eq : (MessagePack.fromSlice payload >>= deserialize) = .ok frame.message

theorem framesPayload_of_decodeFrame {maximumFrameBytes : ℕ}
    (h : decodeFrame deserialize bytes messageType maximumFrameBytes = .ok frame) :
    FramesPayload deserialize bytes messageType maximumFrameBytes frame
      (bytes.drop ipcHeaderBytes) := by
  unfold decodeFrame at h
  split at h
  · cases h
  rename_i hheader
  split at h
  · cases h
  rename_i hlimit
  split at h
  · cases h
  rename_i hmagic
  split at h
  · cases h
  rename_i hversion
  split at h
  · cases h
  rename_i htype
  split at h
  · cases h
  rename_i total htotal
  split at h
  · cases h
  rename_i hlength
  dsimp only at h
  split at h
  · cases h
  rename_i hdigest
  obtain ⟨message, hmessage, h⟩ := of_bind h
  cases h
  rw [not_not] at hmagic hversion htype hlength hdigest
  have hsum := (checkedAddU64_eq_some_iff.mp htotal).1
  have hbytes : 52 ≤ bytes.length := by
    unfold ipcHeaderBytes at hheader
    omega
  have hpayload : (bytes.drop ipcHeaderBytes).length = fromBigEndian (slice bytes 16 20) := by
    rw [List.length_drop]
    omega
  have hfields : bytes = slice bytes 0 4 ++ slice bytes 4 6 ++ slice bytes 6 8 ++
      slice bytes 8 16 ++ slice bytes 16 20 ++ slice bytes 20 52 ++ bytes.drop ipcHeaderBytes := by
    rw [slice_append_slice (by omega) (by omega), slice_append_slice (by omega) (by omega),
      slice_append_slice (by omega) (by omega), slice_append_slice (by omega) (by omega),
      slice_append_slice (by omega) (by omega)]
    exact slice_append_drop.symm
  constructor
  · show bytes = wireFrame messageType (fromBigEndian (slice bytes 8 16))
      (bytes.drop ipcHeaderBytes)
    have hversionBytes : slice bytes 4 6 = bigEndian 2 ipcProtocolVersion := by
      rw [← hversion]
      exact slice_eq_bigEndian (by omega) (by omega)
    have htypeBytes : slice bytes 6 8 = bigEndian 2 messageType := by
      rw [← htype]
      exact slice_eq_bigEndian (by omega) (by omega)
    have hsequenceBytes : slice bytes 8 16 = bigEndian 8 (fromBigEndian (slice bytes 8 16)) :=
      slice_eq_bigEndian (by omega) (by omega)
    have hlengthBytes : slice bytes 16 20 = bigEndian 4 (fromBigEndian (slice bytes 16 20)) :=
      slice_eq_bigEndian (by omega) (by omega)
    unfold wireFrame frameHeader
    rw [hpayload, ← hsequenceBytes, ← hlengthBytes, hdigest, ← hmagic, ← hversionBytes,
      ← htypeBytes]
    exact hfields
  · exact fromBigEndian_slice_lt (n := 8) (by omega) (by omega)
  · rw [hpayload]
    exact fromBigEndian_slice_lt (n := 4) (by omega) (by omega)
  · omega
  · rfl
  · exact mapError_eq_ok_iff.mp hmessage

/-- The header of a frame says how long it is. -/
theorem total_of_decodeFrame {maximumFrameBytes : ℕ}
    (h : decodeFrame deserialize bytes messageType maximumFrameBytes = .ok frame) :
    ipcHeaderBytes ≤ bytes.length ∧ bytes.length ≤ maximumFrameBytes ∧
      checkedAddU64 ipcHeaderBytes (fromBigEndian (slice bytes 16 20)) = some bytes.length := by
  obtain hframes := framesPayload_of_decodeFrame h
  have hbytes : bytes.length = ipcHeaderBytes + (bytes.drop ipcHeaderBytes).length := by
    conv_lhs => rw [hframes.bytes_eq]
    rw [length_wireFrame]
  have hpayload := hframes.payload_lt
  have hlength : fromBigEndian (slice bytes 16 20) = (bytes.drop ipcHeaderBytes).length := by
    conv_lhs => rw [hframes.bytes_eq]
    exact frame_length _ _ _ _ hpayload
  refine ⟨by omega, hframes.length_le, ?_⟩
  rw [hlength, checkedAddU64_eq_some_iff]
  refine ⟨hbytes.symm, ?_⟩
  unfold maxU64
  unfold ipcHeaderBytes at hbytes hpayload
  omega

theorem readFramed_of_decodeFrame {policy : IpcPolicy} (hpolicy : policy.validate = .ok ())
    (h : decodeFrame deserialize bytes messageType policy.maximumFrameBytes = .ok frame)
    (rest : List UInt8) :
    readFramed deserialize messageType policy (bytes ++ rest) = .done (.ok frame) bytes.length := by
  obtain ⟨hheader, hlimit, htotal⟩ := total_of_decodeFrame h
  have hfield : slice (bytes ++ rest) 16 20 = slice bytes 16 20 :=
    slice_append_left (by unfold ipcHeaderBytes at hheader; omega)
  unfold readFramed
  rw [hpolicy]
  rw [if_neg (by rw [List.length_append]; omega), hfield, htotal]
  dsimp only
  rw [if_neg (by omega), if_neg (by rw [List.length_append]; omega), List.take_left, h]

/-- The codec of a message type: what it writes is read as the message. -/
def RoundTrips (serialize : T → Except String Value)
    (deserialize : Content → Except String T) : Prop :=
  ∀ message value, serialize message = .ok value →
    (MessagePack.fromSlice (MessagePack.toVec (compact value)) >>= deserialize) = .ok message

/-- **Frames are exact.**  A framed message is read back with its sequence and the digest of its
payload; what is read as a frame is the encoder's header and the payload; and a stream that starts
with it gives up its bytes for the same frame. -/
theorem frames_exact {serialize : T → Except String Value}
    {deserialize : Content → Except String T} (hcodec : RoundTrips serialize deserialize)
    {messageType : ℕ} (htype : messageType < 2 ^ 16) :
    (∀ sequence message maximumFrameBytes bytes, sequence < 2 ^ 64 →
      encodeFrame serialize messageType sequence message maximumFrameBytes = .ok bytes →
        ∃ value, serialize message = .ok value ∧
          decodeFrame deserialize bytes messageType maximumFrameBytes =
            .ok ⟨sequence, Sha256.digest (framedPayload value), message⟩) ∧
    (∀ bytes maximumFrameBytes frame,
      decodeFrame deserialize bytes messageType maximumFrameBytes = .ok frame →
        ∃ payload, FramesPayload deserialize bytes messageType maximumFrameBytes frame payload) ∧
    (∀ (policy : IpcPolicy) bytes rest frame, policy.validate = .ok () →
      decodeFrame deserialize bytes messageType policy.maximumFrameBytes = .ok frame →
        readFramed deserialize messageType policy (bytes ++ rest) =
          .done (.ok frame) bytes.length) := by
  refine ⟨?_, ?_, ?_⟩
  · intro sequence message maximumFrameBytes bytes hsequence hencode
    obtain ⟨value, hvalue, hpayload, htotal, rfl⟩ := encodeFrame_eq_ok hencode
    refine ⟨value, hvalue, ?_⟩
    exact decodeFrame_frame deserialize (hcodec message value hvalue) htype hsequence htotal
      hpayload
  · intro bytes maximumFrameBytes frame h
    exact ⟨_, framesPayload_of_decodeFrame h⟩
  · intro policy bytes rest frame hpolicy h
    exact readFramed_of_decodeFrame hpolicy h rest

end

/-- The state request in its frame, and a stream in which another byte follows. -/
theorem frames_exact_status :
    ∃ (_ : Sha256) (_ : MessagePack) (policy : IpcPolicy) (bytes : List UInt8)
      (frame : DecodedFrame (ObserverRequest ℤ)),
      policy.validate = .ok () ∧
        encodeFrame (serializeTagged "type" observerRequestVariants) observerMessageType 7
          (.status : ObserverRequest ℤ) policy.maximumFrameBytes = .ok bytes ∧
        bytes.length = 60 ∧ frame.sequence = 7 ∧ frame.message = .status ∧
        (∃ payload, FramesPayload (deserializeTagged "type" observerRequestVariants) bytes
          observerMessageType policy.maximumFrameBytes frame payload) ∧
        readFramed (deserializeTagged "type" observerRequestVariants) observerMessageType policy
          (bytes ++ [0]) = .done (.ok frame) 60 := by
  let sha : Sha256 := ⟨prefixDigest⟩
  let codec : MessagePack := ⟨MessagePack.pack, MessagePack.parse⟩
  let policy : IpcPolicy := {
    protocolVersion := 1
    maximumFrameBytes := 4096
    maximumPendingIntents := 2
    maximumPendingRiskReducing := 1
    maximumPendingExposureIncreasing := 1
    maximumPendingEvents := 1
    maximumReorderWindow := 1
    writeTimeoutMs := 1
    acknowledgmentTimeoutMs := 1 }
  have lawful : LawfulMessagePack := ⟨MessagePack.parse_pack⟩
  have hcodec : RoundTrips (serializeTagged "type" (observerRequestVariants (D := ℤ)))
      (deserializeTagged "type" observerRequestVariants) := by
    intro request value hvalue
    rw [LawfulMessagePack.fromSlice_toVec, ok_bind,
      deserializeTagged_compact observerRequestVariants_nodup hvalue]
  have hexact := frames_exact hcodec (by decide : observerMessageType < 2 ^ 16)
  have hencode : encodeFrame (serializeTagged "type" observerRequestVariants) observerMessageType 7
      (.status : ObserverRequest ℤ) 4096 = .ok _ :=
    encodeFrame_eq rfl (by decide) (by decide) observerMessageType 7
  obtain ⟨value, -, hdecode⟩ := hexact.1 7 .status 4096 _ (by norm_num) hencode
  exact ⟨sha, codec, policy, _, _, by decide, hencode, by decide, rfl, rfl,
    hexact.2.1 _ _ _ hdecode, hexact.2.2 policy _ [0] _ (by decide) hdecode⟩

section

variable {T : Type} [Sha256] [MessagePack] {bytes : List UInt8} {messageType : ℕ}
  {deserialize : Content → Except String T} {frame : DecodedFrame T} {policy : IpcPolicy}

/-- A read of a frame that is not complete waits for the rest of it. -/
theorem readFramed_of_part {part rest : List UInt8} (hpolicy : policy.validate = .ok ())
    (h : decodeFrame deserialize (part ++ rest) messageType policy.maximumFrameBytes = .ok frame)
    (hrest : rest ≠ []) : readFramed deserialize messageType policy part = .starved := by
  obtain ⟨-, hlimit, htotal⟩ := total_of_decodeFrame h
  have hlength := List.length_pos_iff.mpr hrest
  rw [List.length_append] at hlimit
  unfold readFramed
  rw [hpolicy]
  dsimp only
  split
  · rfl
  · rename_i hheader
    have hfield : slice (part ++ rest) 16 20 = slice part 16 20 :=
      slice_append_left (by unfold ipcHeaderBytes at hheader; omega)
    rw [← hfield, htotal]
    dsimp only
    rw [List.length_append, if_neg (by omega), if_pos (by omega)]

theorem decodeFrame_of_readFramed {taken : ℕ}
    (h : readFramed deserialize messageType policy bytes = .done (.ok frame) taken) :
    decodeFrame deserialize (bytes.take taken) messageType policy.maximumFrameBytes =
      .ok frame := by
  unfold readFramed at h
  split at h
  · cases h
  split at h
  · cases h
  split at h
  · cases h
  split at h
  · cases h
  split at h
  · cases h
  · simp only [FrameRead.done.injEq] at h
    rw [← h.2]
    exact h.1

/-- A message with its sequence, and the bytes that are written for it. -/
def WrittenAs (policy : IpcPolicy) (serialize : T → Except String Value) (messageType : ℕ)
    (message : ℕ × T) (bytes : List UInt8) : Prop :=
  message.1 < 2 ^ 64 ∧ policy.framed serialize messageType message.1 message.2 = .ok bytes

variable {serialize : T → Except String Value} {message : ℕ × T}

theorem decodeFrame_of_written (hcodec : RoundTrips serialize deserialize)
    (htype : messageType < 2 ^ 16) (h : WrittenAs policy serialize messageType message bytes) :
    policy.validate = .ok () ∧ ∃ frame,
      decodeFrame deserialize bytes messageType policy.maximumFrameBytes = .ok frame ∧
        (frame.sequence, frame.message) = message := by
  obtain ⟨hsequence, hframed⟩ := h
  obtain ⟨⟨⟩, hpolicy, hencode⟩ := of_bind hframed
  obtain ⟨value, hvalue, hpayload, htotal, rfl⟩ := encodeFrame_eq_ok hencode
  exact ⟨hpolicy, _, decodeFrame_frame deserialize (hcodec _ value hvalue) htype hsequence htotal
    hpayload, rfl⟩

/-- **Streams of frames.**  A stream that is cut off anywhere gives up the messages that are written
completely, with their sequences and in order, and keeps what there is of the next one.  Whatever
the bytes are, what has been read is a sequence of whole frames. -/
theorem frame_streams_exact (hcodec : RoundTrips serialize deserialize)
    (htype : messageType < 2 ^ 16) (policy : IpcPolicy) :
    (∀ messages written part,
      List.Forall₂ (WrittenAs policy serialize messageType) messages written →
      (part = [] ∨ ∃ message bytes, WrittenAs policy serialize messageType message bytes ∧
        part <+: bytes ∧ part ≠ bytes) →
        ∀ reads, messages.length ≤ reads →
          ((readFrames deserialize messageType policy reads (written.flatten ++ part)).1.map
            fun frame => (frame.sequence, frame.message)) = messages ∧
          (readFrames deserialize messageType policy reads (written.flatten ++ part)).2 = part) ∧
    ∀ reads bytes, ∃ written,
      List.Forall₂ (fun frame bytes =>
        decodeFrame deserialize bytes messageType policy.maximumFrameBytes = .ok frame)
        (readFrames deserialize messageType policy reads bytes).1 written ∧
      bytes = written.flatten ++ (readFrames deserialize messageType policy reads bytes).2 := by
  constructor
  · intro messages written part hwritten hpart reads hreads
    induction hwritten generalizing reads with
    | nil =>
      cases reads with
      | zero => exact ⟨rfl, rfl⟩
      | succ reads =>
        have hstops : ∀ frame taken, readFramed deserialize messageType policy part ≠
            .done (.ok frame) taken := by
          intro frame taken hread
          obtain rfl | ⟨message, _, hmessage, ⟨rest, rfl⟩, hshort⟩ := hpart
          · have hdecode := decodeFrame_of_readFramed hread
            rw [List.take_nil] at hdecode
            cases hdecode
          · obtain ⟨hpolicy, next, hdecode, -⟩ := decodeFrame_of_written hcodec htype hmessage
            have hrest : rest ≠ [] := fun hnil => hshort (by rw [hnil, List.append_nil])
            rw [readFramed_of_part hpolicy hdecode hrest] at hread
            cases hread
        rw [List.flatten_nil, List.nil_append]
        unfold readFrames
        split
        · rename_i frame taken hread
          exact absurd hread (hstops frame taken)
        · exact ⟨rfl, rfl⟩
    | cons hmessage _ ih =>
      obtain ⟨reads, rfl⟩ := Nat.exists_eq_add_of_le' (Nat.one_le_of_lt hreads)
      obtain ⟨hpolicy, frame, hdecode, hframe⟩ := decodeFrame_of_written hcodec htype hmessage
      obtain ⟨hmessages, hrest⟩ := ih reads (Nat.le_of_succ_le_succ hreads)
      unfold readFrames
      rw [List.flatten_cons, List.append_assoc, readFramed_of_decodeFrame hpolicy hdecode]
      dsimp only
      rw [List.drop_left, List.map_cons, hmessages, hframe]
      exact ⟨rfl, hrest⟩
  · intro reads
    induction reads with
    | zero => exact fun bytes => ⟨[], .nil, rfl⟩
    | succ reads ih =>
      intro bytes
      unfold readFrames
      split
      · rename_i frame taken hread
        obtain ⟨written, hwritten, hbytes⟩ := ih (bytes.drop taken)
        refine ⟨bytes.take taken :: written, .cons (decodeFrame_of_readFramed hread) hwritten, ?_⟩
        rw [List.flatten_cons, List.append_assoc, ← hbytes, List.take_append_drop]
      · exact ⟨[], .nil, rfl⟩

end

/-- Two requests, and a third one whose last byte is missing. -/
theorem frame_streams_exact_status :
    ∃ (_ : Sha256) (_ : MessagePack) (policy : IpcPolicy) (bytes : List UInt8),
      policy.framed (serializeTagged "type" observerRequestVariants) observerMessageType 7
        (.status : ObserverRequest ℤ) = .ok bytes ∧ bytes.length = 60 ∧
      ((readFrames (deserializeTagged "type" observerRequestVariants) observerMessageType policy 3
        ([bytes, bytes].flatten ++ bytes.take 59)).1.map fun frame =>
          (frame.sequence, frame.message)) =
            [(7, .status), (7, (.status : ObserverRequest ℤ))] := by
  let sha : Sha256 := ⟨prefixDigest⟩
  let codec : MessagePack := ⟨MessagePack.pack, MessagePack.parse⟩
  let policy : IpcPolicy := ⟨1, 4096, 2, 1, 1, 1, 1, 1, 1⟩
  have lawful : LawfulMessagePack := ⟨MessagePack.parse_pack⟩
  have hcodec : RoundTrips (serializeTagged "type" (observerRequestVariants (D := ℤ)))
      (deserializeTagged "type" observerRequestVariants) := by
    intro request value hvalue
    rw [LawfulMessagePack.fromSlice_toVec, ok_bind,
      deserializeTagged_compact observerRequestVariants_nodup hvalue]
  have hencode : encodeFrame (serializeTagged "type" observerRequestVariants) observerMessageType 7
      (.status : ObserverRequest ℤ) 4096 = .ok _ :=
    encodeFrame_eq rfl (by decide) (by decide) observerMessageType 7
  have hwritten : WrittenAs policy (serializeTagged "type" observerRequestVariants)
      observerMessageType (7, (.status : ObserverRequest ℤ)) _ := ⟨by norm_num, hencode⟩
  refine ⟨sha, codec, policy, _, hencode, by decide, ?_⟩
  refine ((frame_streams_exact hcodec (by decide) policy).1 _ _ _ (.cons hwritten (.cons hwritten
    .nil)) (.inr ⟨_, _, hwritten, List.take_prefix 59 _, ?_⟩) 3 (by decide)).1
  decide

end CopyTrade.Analysis
