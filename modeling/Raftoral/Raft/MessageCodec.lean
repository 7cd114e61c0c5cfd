import Raftoral.Lib.JsonFormat
import Raftoral.Raft.Codec

/-!
# The bytes of the message envelope

`GenericMessage` in the encoding of `proto/raftoral.proto`, and the body of an HTTP request, the
JSON object of `http/messages.rs` around it. The variant of the oneof stands before the cluster;
its field is written even if it is empty, so that the reader finds which variant it was.
-/

namespace Raftoral

open Wire

/-- The body of an HTTP request: the message in its protobuf encoding. -/
structure JsonGenericMessage where
  messageBytes : Bytes
deriving DecidableEq, Repr

namespace Codec

/-- A string field holds UTF-8. -/
def utf8Bytes (s : String) : Bytes := s.toUTF8.data.toList

def ofUtf8Bytes (b : Bytes) : Option String := String.fromUTF8? ⟨b.toArray⟩

theorem ofUtf8Bytes_utf8Bytes (s : String) : ofUtf8Bytes (utf8Bytes s) = some s := by
  have hbytes : (⟨(utf8Bytes s).toArray⟩ : ByteArray) = s.toUTF8 := by simp [utf8Bytes]
  unfold ofUtf8Bytes String.fromUTF8?
  rw [hbytes, String.toUTF8_eq_toByteArray, dif_pos s.isValidUTF8]
  rfl

/-- The field number of a variant, and its content. -/
def encodePayload : GenericPayload → UInt8 × Bytes
  | .propose commandJson syncId =>
    (0x0a, bytesField 0x0a commandJson ++ uintField 0x10 syncId)
  | .raftMessage bytes => (0x12, bytes)
  | .confChange id changeBytes => (0x1a, uintField 0x08 id ++ bytesField 0x12 changeBytes)
  | .campaign => (0x22, [])
  | .addNode nodeId address syncId =>
    (0x2a, uintField 0x08 nodeId ++ (bytesField 0x12 (utf8Bytes address) ++
      uintField 0x18 syncId))
  | .removeNode nodeId syncId => (0x32, uintField 0x08 nodeId ++ uintField 0x10 syncId)

def encodeGenericMessage (m : GenericMessage) : Bytes :=
  (match m.message with
    | some payload => (encodePayload payload).1 ::
        (varint (encodePayload payload).2.length ++ (encodePayload payload).2)
    | none => []) ++ uintField 0x38 m.clusterId

def readPayload (tag : UInt8) (b : Bytes) : Option GenericPayload :=
  if tag = 0x0a then do
    let (commandJson, b) ← readBytes 0x0a b
    let (syncId, _) ← readUint 0x10 b
    return .propose commandJson syncId
  else if tag = 0x12 then some (.raftMessage b)
  else if tag = 0x1a then do
    let (id, b) ← readUint 0x08 b
    let (changeBytes, _) ← readBytes 0x12 b
    return .confChange id changeBytes
  else if tag = 0x22 then some .campaign
  else if tag = 0x2a then do
    let (nodeId, b) ← readUint 0x08 b
    let (address, b) ← readBytes 0x12 b
    let address ← ofUtf8Bytes address
    let (syncId, _) ← readUint 0x18 b
    return .addNode nodeId address syncId
  else if tag = 0x32 then do
    let (nodeId, b) ← readUint 0x08 b
    let (syncId, _) ← readUint 0x10 b
    return .removeNode nodeId syncId
  else none

def readGenericMessage : Bytes → Option (GenericMessage × Bytes)
  | [] => some ({}, [])
  | tag :: b =>
    if tag = 0x38 then
      (readVarint b).map fun p => ({ clusterId := p.1 }, p.2)
    else do
      let (length, b) ← readVarint b
      let payload ← readPayload tag (b.take length)
      let (clusterId, b) ← readUint 0x38 (b.drop length)
      return ({ clusterId, message := some payload }, b)

theorem readPayload_encodePayload (payload : GenericPayload) :
    readPayload (encodePayload payload).1 (encodePayload payload).2 = some payload := by
  cases payload <;> simp [readPayload, encodePayload, ofUtf8Bytes_utf8Bytes]

theorem readGenericMessage_encodeGenericMessage (m : GenericMessage) :
    readGenericMessage (encodeGenericMessage m) = some (m, []) := by
  obtain ⟨clusterId, message⟩ := m
  cases message with
  | none =>
    by_cases hc : clusterId = 0
    · simp [encodeGenericMessage, uintField, hc, readGenericMessage]
    · have hread := readVarint_varint clusterId []
      rw [List.append_nil] at hread
      simp [encodeGenericMessage, uintField, hc, readGenericMessage, hread]
  | some payload =>
    have htag : (encodePayload payload).1 ≠ 0x38 := by cases payload <;> simp [encodePayload]
    simp [encodeGenericMessage, readGenericMessage, htag, readPayload_encodePayload]

scoped instance : ProstMessage GenericMessage where
  encodeToVec := encodeGenericMessage
  decode b := finish (readGenericMessage b)
  decode_encodeToVec m := by rw [readGenericMessage_encodeGenericMessage]; rfl

open Json Json.Format

theorem ofNats_toNats (b : Bytes) : some ((b.map UInt8.toNat).map UInt8.ofNat) = some b := by
  simp [Function.comp_def]

def messageBytesFormat : Format Bytes :=
  (array nat).via (·.map UInt8.toNat) (fun l => some (l.map UInt8.ofNat)) ofNats_toNats

def readJsonGenericMessage (b : Bytes) : Option (JsonGenericMessage × Bytes) := do
  let b ← expect (text "\x7b\"message_bytes\":") b
  let (messageBytes, b) ← messageBytesFormat.read b
  let b ← expect (text "\x7d") b
  return ({ messageBytes }, b)

scoped instance : SerdeJson JsonGenericMessage where
  toVec m := text "\x7b\"message_bytes\":" ++
    (messageBytesFormat.write m.messageBytes ++ (text "\x7d" ++ []))
  fromSlice b := finish (readJsonGenericMessage b)
  fromSlice_toVec m := by
    have hread := messageBytesFormat.read_write m.messageBytes (text "\x7d" ++ [])
      (stops_cons [] (by decide))
    simp only [readJsonGenericMessage, expect_append, hread, Option.bind_eq_bind, Option.bind_some]
    rfl

end Codec

end Raftoral
