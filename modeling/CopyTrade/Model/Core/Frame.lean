import CopyTrade.Foundation.Derive
import CopyTrade.Foundation.Words
import CopyTrade.Model.Identity

/-!
# Frames

A message travels as one frame: a header of 52 bytes, and then the payload, which is the compact
MessagePack form of the message.  The bytes of that form are the work of a dependency
(`MessagePack`).
-/

namespace CopyTrade.Model

open Foundation

/-- `rmp_serde`: the bytes of a content in the compact form, and reading them. -/
class MessagePack where
  toVec : Content → List UInt8
  fromSlice : List UInt8 → Except String Content

/-- The bytes of a content are read as the content. -/
class LawfulMessagePack [MessagePack] : Prop where
  fromSlice_toVec : ∀ content, MessagePack.fromSlice (MessagePack.toVec content) = .ok content

def ipcMagic : List UInt8 := [0x48, 0x59, 0x50, 0x41]

def ipcProtocolVersion : ℕ := 1

def ipcHeaderBytes : ℕ := 52

def observerMessageType : ℕ := 1

def signerMessageType : ℕ := 2

structure DecodedFrame (T : Type) where
  sequence : ℕ
  payloadHash : Hash
  message : T

inductive IpcError
  | invalidPolicy
  | frameTooLarge
  | truncated
  | invalidMagic
  | unsupportedVersion
  | unexpectedMessageType
  | payloadHashMismatch
  | encode (message : String)
  | decode (message : String)
  | io (message : String)
  | timeout
deriving DecidableEq

variable {T : Type}

/-- `bytes[start..stop]`. -/
def slice (bytes : List UInt8) (start stop : ℕ) : List UInt8 := (bytes.take stop).drop start

def frameHeader [Sha256] (messageType sequence : ℕ) (payload : List UInt8) : List UInt8 :=
  ipcMagic ++ bigEndian 2 ipcProtocolVersion ++ bigEndian 2 messageType ++ bigEndian 8 sequence ++
    bigEndian 4 payload.length ++ (Sha256.digest payload).1

/-- `encode_frame`; a `usize` has 64 bits. -/
def encodeFrame [Sha256] [MessagePack] (serialize : T → Except String Value)
    (messageType sequence : ℕ) (message : T) (maximumFrameBytes : ℕ) :
    Except IpcError (List UInt8) := do
  let value ← (serialize message).mapError IpcError.encode
  let payload := MessagePack.toVec (compact value)
  match checkedAddU64 ipcHeaderBytes payload.length with
  | none => .error .frameTooLarge
  | some total =>
    if maximumFrameBytes < total ∨ 2 ^ 32 - 1 < payload.length then .error .frameTooLarge
    else pure (frameHeader messageType sequence payload ++ payload)

def decodeFrame [Sha256] [MessagePack] (deserialize : Content → Except String T)
    (bytes : List UInt8) (expectedMessageType maximumFrameBytes : ℕ) :
    Except IpcError (DecodedFrame T) :=
  if bytes.length < ipcHeaderBytes then .error .truncated
  else if maximumFrameBytes < bytes.length then .error .frameTooLarge
  else if slice bytes 0 4 ≠ ipcMagic then .error .invalidMagic
  else if fromBigEndian (slice bytes 4 6) ≠ ipcProtocolVersion then .error .unsupportedVersion
  else if fromBigEndian (slice bytes 6 8) ≠ expectedMessageType then
    .error .unexpectedMessageType
  else
    match checkedAddU64 ipcHeaderBytes (fromBigEndian (slice bytes 16 20)) with
    | none => .error .frameTooLarge
    | some total =>
      if bytes.length ≠ total then .error .truncated
      else
        let payload := bytes.drop ipcHeaderBytes
        if (Sha256.digest payload).1 ≠ slice bytes 20 52 then .error .payloadHashMismatch
        else do
          let message ← (MessagePack.fromSlice payload >>= deserialize).mapError IpcError.decode
          pure {
            sequence := fromBigEndian (slice bytes 8 16)
            payloadHash := Sha256.digest payload
            message }

theorem length_frameHeader [Sha256] (messageType sequence : ℕ) (payload : List UInt8) :
    (frameHeader messageType sequence payload).length = ipcHeaderBytes := by
  unfold frameHeader
  simp only [List.length_append, length_bigEndian, (Sha256.digest payload).2]
  rfl

theorem slice_append_left {a b : List UInt8} {start stop : ℕ} (h : stop ≤ a.length) :
    slice (a ++ b) start stop = slice a start stop := by
  unfold slice
  rw [List.take_append_of_le_length h]

theorem slice_append_self {a b : List UInt8} {start stop : ℕ} (hstart : a.length = start)
    (hstop : start + b.length = stop) : slice (a ++ b) start stop = b := by
  unfold slice
  have hlength : (a ++ b).length = stop := by rw [List.length_append, hstart, hstop]
  rw [← hlength, List.take_length, ← hstart, List.drop_left]

section

variable [Sha256] (messageType sequence : ℕ) (payload rest : List UInt8)

theorem frame_magic :
    slice (frameHeader messageType sequence payload ++ rest) 0 4 = ipcMagic := rfl

theorem frame_version :
    fromBigEndian (slice (frameHeader messageType sequence payload ++ rest) 4 6) =
      ipcProtocolVersion := rfl

theorem frame_messageType (h : messageType < 2 ^ 16) :
    fromBigEndian (slice (frameHeader messageType sequence payload ++ rest) 6 8) =
      messageType :=
  fromBigEndian_bigEndian (n := 2) h

theorem frame_sequence (h : sequence < 2 ^ 64) :
    fromBigEndian (slice (frameHeader messageType sequence payload ++ rest) 8 16) = sequence :=
  fromBigEndian_bigEndian (n := 8) h

theorem frame_length (h : payload.length < 2 ^ 32) :
    fromBigEndian (slice (frameHeader messageType sequence payload ++ rest) 16 20) =
      payload.length :=
  fromBigEndian_bigEndian (n := 4) h

theorem frame_digest :
    slice (frameHeader messageType sequence payload ++ rest) 20 52 =
      (Sha256.digest payload).1 := by
  have hstop : 52 ≤ (frameHeader messageType sequence payload).length :=
    (length_frameHeader messageType sequence payload).ge
  rw [slice_append_left hstop]
  unfold frameHeader
  refine slice_append_self ?_ ?_
  · simp only [List.length_append, length_bigEndian]
    rfl
  · rw [(Sha256.digest payload).2]

end

def framedPayload [MessagePack] (value : Value) : List UInt8 := MessagePack.toVec (compact value)

/-- A message that can be serialized and fits is framed. -/
theorem encodeFrame_eq [Sha256] [MessagePack] {serialize : T → Except String Value} {message : T}
    {value : Value} (hvalue : serialize message = .ok value) {maximumFrameBytes : ℕ}
    (htotal : ipcHeaderBytes + (framedPayload value).length ≤ maximumFrameBytes)
    (hlength : (framedPayload value).length < 2 ^ 32) (messageType sequence : ℕ) :
    encodeFrame serialize messageType sequence message maximumFrameBytes =
      .ok (frameHeader messageType sequence (framedPayload value) ++ framedPayload value) := by
  unfold encodeFrame
  rw [hvalue]
  show (match checkedAddU64 ipcHeaderBytes (framedPayload value).length with
    | none => Except.error IpcError.frameTooLarge
    | some total =>
      if maximumFrameBytes < total ∨ 2 ^ 32 - 1 < (framedPayload value).length then
        .error .frameTooLarge
      else
        .ok (frameHeader messageType sequence (framedPayload value) ++ framedPayload value)) = _
  have hsum : checkedAddU64 ipcHeaderBytes (framedPayload value).length =
      some (ipcHeaderBytes + (framedPayload value).length) := by
    unfold checkedAddU64 maxU64 ipcHeaderBytes
    rw [if_pos (by omega)]
  rw [hsum]
  dsimp only
  rw [if_neg (by omega)]

/-- The frame of a payload is read as what the payload is read as. -/
theorem decodeFrame_frame [Sha256] [MessagePack] (deserialize : Content → Except String T)
    {messageType sequence maximumFrameBytes : ℕ} {payload : List UInt8} {message : T}
    (hmessage : (MessagePack.fromSlice payload >>= deserialize) = .ok message)
    (htype : messageType < 2 ^ 16) (hsequence : sequence < 2 ^ 64)
    (htotal : ipcHeaderBytes + payload.length ≤ maximumFrameBytes)
    (hlength : payload.length < 2 ^ 32) :
    decodeFrame deserialize (frameHeader messageType sequence payload ++ payload) messageType
      maximumFrameBytes = .ok ⟨sequence, Sha256.digest payload, message⟩ := by
  have hheader := length_frameHeader messageType sequence payload
  have hbytes : (frameHeader messageType sequence payload ++ payload).length =
      ipcHeaderBytes + payload.length := by rw [List.length_append, hheader]
  have hdrop : (frameHeader messageType sequence payload ++ payload).drop ipcHeaderBytes =
      payload := by rw [← hheader, List.drop_left]
  have hsum : checkedAddU64 ipcHeaderBytes payload.length =
      some (ipcHeaderBytes + payload.length) := by
    unfold checkedAddU64 maxU64 ipcHeaderBytes
    rw [if_pos (by omega)]
  unfold decodeFrame
  rw [hbytes, if_neg (by omega), if_neg (by omega), frame_magic, if_neg (by simp), frame_version,
    if_neg (by simp), frame_messageType _ _ _ _ htype, if_neg (by simp),
    frame_length _ _ _ _ hlength, hsum]
  dsimp only
  rw [if_neg (by simp), hdrop, frame_digest, if_neg (by simp), hmessage,
    frame_sequence _ _ _ _ hsequence]
  rfl

theorem encodeFrame_eq_error [Sha256] [MessagePack] {serialize : T → Except String Value}
    {message : T} {reason : String} (h : serialize message = .error reason)
    (messageType sequence maximumFrameBytes : ℕ) :
    encodeFrame serialize messageType sequence message maximumFrameBytes =
      .error (.encode reason) := by
  unfold encodeFrame
  rw [h]
  rfl

/-! ## Frames on a stream

A read takes the header of a frame from the stream, then as many bytes as the header says. -/

structure IpcPolicy where
  protocolVersion : ℕ
  maximumFrameBytes : ℕ
  maximumPendingIntents : ℕ
  maximumPendingRiskReducing : ℕ
  maximumPendingExposureIncreasing : ℕ
  maximumPendingEvents : ℕ
  maximumReorderWindow : ℕ
  writeTimeoutMs : ℕ
  acknowledgmentTimeoutMs : ℕ
deriving DecidableEq

namespace IpcPolicy

def validate (policy : IpcPolicy) : Except IpcError Unit :=
  if policy.protocolVersion ≠ ipcProtocolVersion
      ∨ policy.maximumFrameBytes < ipcHeaderBytes
      ∨ 16 * 1024 * 1024 < policy.maximumFrameBytes
      ∨ policy.maximumPendingIntents = 0
      ∨ policy.maximumPendingRiskReducing = 0
      ∨ policy.maximumPendingExposureIncreasing = 0
      ∨ policy.maximumPendingEvents = 0
      ∨ policy.maximumReorderWindow = 0
      ∨ checkedAddU64 policy.maximumPendingRiskReducing policy.maximumPendingExposureIncreasing ≠
        some policy.maximumPendingIntents
      ∨ policy.writeTimeoutMs = 0
      ∨ policy.acknowledgmentTimeoutMs = 0 then
    .error .invalidPolicy
  else .ok ()

/-- The bytes that `write_framed` writes. -/
def framed {T : Type} [Sha256] [MessagePack] (policy : IpcPolicy)
    (serialize : T → Except String Value) (messageType sequence : ℕ) (message : T) :
    Except IpcError (List UInt8) := do
  policy.validate
  encodeFrame serialize messageType sequence message policy.maximumFrameBytes

end IpcPolicy

/-- What a read of a frame comes to with the bytes there are: its result and how many of them it
has taken, or it takes all of them and waits for more. -/
inductive FrameRead (T : Type)
  | done (result : Except IpcError (DecodedFrame T)) (taken : ℕ)
  | starved

/-- `read_framed` with the bytes there are. -/
def readFramed {T : Type} [Sha256] [MessagePack] (deserialize : Content → Except String T)
    (expectedMessageType : ℕ) (policy : IpcPolicy) (bytes : List UInt8) : FrameRead T :=
  match policy.validate with
  | .error error => .done (.error error) 0
  | .ok () =>
    if bytes.length < ipcHeaderBytes then .starved
    else
      match checkedAddU64 ipcHeaderBytes (fromBigEndian (slice bytes 16 20)) with
      | none => .done (.error .frameTooLarge) ipcHeaderBytes
      | some total =>
        if policy.maximumFrameBytes < total then .done (.error .frameTooLarge) ipcHeaderBytes
        else if bytes.length < total then .starved
        else .done (decodeFrame deserialize (bytes.take total) expectedMessageType
          policy.maximumFrameBytes) total

/-- The frames that a loop of reads takes from the bytes there are, and the bytes it leaves. -/
def readFrames {T : Type} [Sha256] [MessagePack] (deserialize : Content → Except String T)
    (expectedMessageType : ℕ) (policy : IpcPolicy) :
    ℕ → List UInt8 → List (DecodedFrame T) × List UInt8
  | 0, bytes => ([], bytes)
  | reads + 1, bytes =>
    match readFramed deserialize expectedMessageType policy bytes with
    | .done (.ok frame) taken =>
      let (frames, rest) := readFrames deserialize expectedMessageType policy reads
        (bytes.drop taken)
      (frame :: frames, rest)
    | _ => ([], bytes)

end CopyTrade.Model
