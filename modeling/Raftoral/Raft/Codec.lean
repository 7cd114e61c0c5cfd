import Raftoral.Lib.Json
import Raftoral.Lib.Wire
import Raftoral.Raft.StateMachine

/-!
# Encodings of the records

`ProstMessage` and `SerdeJson` ask only for a decoder that inverts the encoder. This file
gives the Raft records the encoding of raft-rs's `eraftpb` schema, field numbers included,
and the JSON records the layout of serde_json, and with them the instances that run the
model on concrete values. The protobuf decoders accept the fields in ascending order, which
is how an encoder writes them.
-/

namespace Raftoral

open Wire

namespace Codec

/-- The whole input was read, or it is malformed. -/
def finish {α : Type} : Option (α × Bytes) → Except String α
  | some (a, []) => .ok a
  | _ => .error "invalid wire type value"

/-- A map is given by the list of its bindings. -/
theorem ofList_toList {K V : Type} [DecidableEq K] [Ord K] [Std.TransOrd K]
    [Std.LawfulEqOrd K] (m : Std.ExtTreeMap K V compare) : Std.ExtTreeMap.ofList m.toList compare = m := by
  refine Std.ExtTreeMap.ext_getElem? fun k => ?_
  cases hk : m[k]? with
  | none =>
    refine Std.ExtTreeMap.getElem?_ofList_of_contains_eq_false ?_
    rw [← Bool.not_eq_true, List.contains_iff_mem, Std.ExtTreeMap.map_fst_toList_eq_keys,
      Std.ExtTreeMap.mem_keys, Std.ExtTreeMap.mem_iff_isSome_getElem?, hk]
    simp
  | some v =>
    refine Std.ExtTreeMap.getElem?_ofList_of_mem Std.ReflCmp.compare_self
      Std.ExtTreeMap.distinct_keys_toList ?_
    exact Std.ExtTreeMap.mem_toList_iff_getElem?_eq_some.mpr hk

def entryTypeNumber : EntryType → ℕ
  | .entryNormal => 0
  | .entryConfChange => 1
  | .entryConfChangeV2 => 2

def entryTypeOfNumber : ℕ → Option EntryType
  | 0 => some .entryNormal
  | 1 => some .entryConfChange
  | 2 => some .entryConfChangeV2
  | _ => none

def encodeEntry (e : Entry) : Bytes :=
  uintField 0x08 (entryTypeNumber e.entryType) ++ (uintField 0x10 e.term ++
    (uintField 0x18 e.index ++ (bytesField 0x22 e.data ++ (bytesField 0x32 e.context))))

def readEntry (b : Bytes) : Option (Entry × Bytes) := do
  let (ty, b) ← readUint 0x08 b
  let entryType ← entryTypeOfNumber ty
  let (term, b) ← readUint 0x10 b
  let (index, b) ← readUint 0x18 b
  let (data, b) ← readBytes 0x22 b
  let (context, b) ← readBytes 0x32 b
  return ({ entryType, term, index, data, context }, b)

def encodeHardState (hs : HardState) : Bytes :=
  uintField 0x08 hs.term ++ (uintField 0x10 hs.vote ++ (uintField 0x18 hs.commit))

def readHardState (b : Bytes) : Option (HardState × Bytes) := do
  let (term, b) ← readUint 0x08 b
  let (vote, b) ← readUint 0x10 b
  let (commit, b) ← readUint 0x18 b
  return ({ term, vote, commit }, b)

def encodeConfState (cs : ConfState) : Bytes :=
  bytesField 0x0a (packed cs.voters) ++ (bytesField 0x12 (packed cs.learners))

def readConfState (b : Bytes) : Option (ConfState × Bytes) := do
  let (voters, b) ← readBytes 0x0a b
  let voters ← readPacked voters
  let (learners, b) ← readBytes 0x12 b
  let learners ← readPacked learners
  return ({ voters, learners }, b)

def encodeSnapshotMetadata (m : SnapshotMetadata) : Bytes :=
  bytesField 0x0a (encodeConfState m.confState) ++ (uintField 0x10 m.index ++
    (uintField 0x18 m.term))

def readSnapshotMetadata (b : Bytes) : Option (SnapshotMetadata × Bytes) := do
  let (conf, b) ← readBytes 0x0a b
  let (confState, _) ← readConfState conf
  let (index, b) ← readUint 0x10 b
  let (term, b) ← readUint 0x18 b
  return ({ confState, index, term }, b)

def encodeSnapshot (s : Snapshot) : Bytes :=
  bytesField 0x0a s.data ++ (bytesField 0x12 (encodeSnapshotMetadata s.metadata))

def readSnapshot (b : Bytes) : Option (Snapshot × Bytes) := do
  let (data, b) ← readBytes 0x0a b
  let (md, b) ← readBytes 0x12 b
  let (metadata, _) ← readSnapshotMetadata md
  return ({ data, metadata }, b)

def encodeMessage (m : Message) : Bytes :=
  uintField 0x08 m.msgType ++ (uintField 0x10 m.target ++ (uintField 0x18 m.sender ++
    (uintField 0x20 m.term ++ bytesField 0x62 m.context)))

def readMessage (b : Bytes) : Option (Message × Bytes) := do
  let (msgType, b) ← readUint 0x08 b
  let (target, b) ← readUint 0x10 b
  let (sender, b) ← readUint 0x18 b
  let (term, b) ← readUint 0x20 b
  let (context, b) ← readBytes 0x62 b
  return ({ msgType, target, sender, term, context }, b)

def changeTypeNumber : ConfChangeType → ℕ
  | .addNode => 0
  | .removeNode => 1
  | .addLearnerNode => 2

def changeTypeOfNumber : ℕ → Option ConfChangeType
  | 0 => some .addNode
  | 1 => some .removeNode
  | 2 => some .addLearnerNode
  | _ => none

def encodeConfChange (cc : ConfChange) : Bytes :=
  uintField 0x10 (changeTypeNumber cc.changeType) ++ (uintField 0x18 cc.nodeId ++
    bytesField 0x22 cc.context)

def readConfChange (b : Bytes) : Option (ConfChange × Bytes) := do
  let (ty, b) ← readUint 0x10 b
  let changeType ← changeTypeOfNumber ty
  let (nodeId, b) ← readUint 0x18 b
  let (context, b) ← readBytes 0x22 b
  return ({ changeType, nodeId, context }, b)

/-! ## Round trips -/

theorem entryTypeOfNumber_entryTypeNumber (t : EntryType) :
    entryTypeOfNumber (entryTypeNumber t) = some t := by
  cases t <;> rfl

theorem readEntry_encodeEntry (e : Entry) : readEntry (encodeEntry e) = some (e, []) := by
  simp [readEntry, encodeEntry, entryTypeOfNumber_entryTypeNumber]

theorem readHardState_encodeHardState (hs : HardState) :
    readHardState (encodeHardState hs) = some (hs, []) := by
  simp [readHardState, encodeHardState]

theorem readConfState_encodeConfState (cs : ConfState) :
    readConfState (encodeConfState cs) = some (cs, []) := by
  simp [readConfState, encodeConfState]

theorem readSnapshotMetadata_encodeSnapshotMetadata (m : SnapshotMetadata) :
    readSnapshotMetadata (encodeSnapshotMetadata m) = some (m, []) := by
  simp [readSnapshotMetadata, encodeSnapshotMetadata, readConfState_encodeConfState]

theorem readSnapshot_encodeSnapshot (s : Snapshot) :
    readSnapshot (encodeSnapshot s) = some (s, []) := by
  simp [readSnapshot, encodeSnapshot, readSnapshotMetadata_encodeSnapshotMetadata]

scoped instance : ProstMessage Entry where
  encodeToVec := encodeEntry
  decode b := finish (readEntry b)
  decode_encodeToVec e := by rw [readEntry_encodeEntry]; rfl

scoped instance : ProstMessage HardState where
  encodeToVec := encodeHardState
  decode b := finish (readHardState b)
  decode_encodeToVec hs := by rw [readHardState_encodeHardState]; rfl

scoped instance : ProstMessage ConfState where
  encodeToVec := encodeConfState
  decode b := finish (readConfState b)
  decode_encodeToVec cs := by rw [readConfState_encodeConfState]; rfl

scoped instance : ProstMessage Snapshot where
  encodeToVec := encodeSnapshot
  decode b := finish (readSnapshot b)
  decode_encodeToVec s := by rw [readSnapshot_encodeSnapshot]; rfl

theorem changeTypeOfNumber_changeTypeNumber (t : ConfChangeType) :
    changeTypeOfNumber (changeTypeNumber t) = some t := by
  cases t <;> rfl

scoped instance : ProstMessage Message where
  encodeToVec := encodeMessage
  decode b := finish (readMessage b)
  decode_encodeToVec m := by
    have h : readMessage (encodeMessage m) = some (m, []) := by simp [readMessage, encodeMessage]
    rw [h]
    rfl

scoped instance : ProstMessage ConfChange where
  encodeToVec := encodeConfChange
  decode b := finish (readConfChange b)
  decode_encodeToVec cc := by
    have h : readConfChange (encodeConfChange cc) = some (cc, []) := by
      simp [readConfChange, encodeConfChange, changeTypeOfNumber_changeTypeNumber]
    rw [h]
    rfl

/-! ## JSON -/

open Json

/-- The bytes of a fixed text. -/
def text (s : String) : Bytes := s.toList.map fun c => UInt8.ofNat c.toNat

def readNodeMetadata (b : Bytes) : Option (NodeMetadata × Bytes) := do
  let b ← expect (text "\x7b\"address\":") b
  let (address, b) ← readQuoted b
  let b ← expect (text "\x7d") b
  return ({ address }, b)

scoped instance : SerdeJson NodeMetadata where
  toVec m := text "\x7b\"address\":" ++ (quote m.address ++ (text "\x7d" ++ []))
  fromSlice b := finish (readNodeMetadata b)
  fromSlice_toVec m := by
    simp only [readNodeMetadata, expect_append, readQuoted_quote, Option.bind_eq_bind,
      Option.bind_some]
    rfl

def encodeKvCommand : KvCommand → Bytes
  | .set key value => text "\x7b\"Set\":\x7b\"key\":" ++ (quote key ++
      (text ",\"value\":" ++ (quote value ++ (text "\x7d\x7d" ++ []))))
  | .delete key => text "\x7b\"Delete\":\x7b\"key\":" ++ (quote key ++
      (text "\x7d\x7d" ++ []))

def readKvCommand (b : Bytes) : Option (KvCommand × Bytes) :=
  match expect (text "\x7b\"Set\":\x7b\"key\":") b with
  | some b => do
    let (key, b) ← readQuoted b
    let b ← expect (text ",\"value\":") b
    let (value, b) ← readQuoted b
    let b ← expect (text "\x7d\x7d") b
    return (.set key value, b)
  | none => do
    let b ← expect (text "\x7b\"Delete\":\x7b\"key\":") b
    let (key, b) ← readQuoted b
    let b ← expect (text "\x7d\x7d") b
    return (.delete key, b)

scoped instance : SerdeJson KvCommand where
  toVec := encodeKvCommand
  fromSlice b := finish (readKvCommand b)
  fromSlice_toVec c := by
    cases c with
    | set key value =>
      simp only [encodeKvCommand, readKvCommand, expect_append, readQuoted_quote,
        Option.bind_eq_bind, Option.bind_some]
      rfl
    | delete key =>
      have hset : expect (text "\x7b\"Set\":\x7b\"key\":")
          (text "\x7b\"Delete\":\x7b\"key\":" ++ (quote key ++ (text "\x7d\x7d" ++ []))) = none := by
        rw [expect, List.take_append_of_le_length (by decide), if_neg (by decide)]
      simp only [encodeKvCommand, readKvCommand, hset, expect_append, readQuoted_quote,
        Option.bind_eq_bind, Option.bind_some]
      rfl

/-! ## String maps -/

def encodeMember (p : String × String) (rest : Bytes) : Bytes :=
  quote p.1 ++ (text ":" ++ (quote p.2 ++ rest))

/-- The members after the first, and the closing brace. -/
def encodeMembers : List (String × String) → Bytes
  | [] => text "\x7d" ++ []
  | p :: ps => text "," ++ encodeMember p (encodeMembers ps)

def encodeObject : List (String × String) → Bytes
  | [] => text "\x7b" ++ (text "\x7d" ++ [])
  | p :: ps => text "\x7b" ++ encodeMember p (encodeMembers ps)

def readMember (b : Bytes) : Option ((String × String) × Bytes) := do
  let (key, b) ← readQuoted b
  let b ← expect (text ":") b
  let (value, b) ← readQuoted b
  return ((key, value), b)

/-- Each member takes at least one byte, so the length of the input bounds the loop. -/
def readMembers : ℕ → Bytes → Option (List (String × String) × Bytes)
  | 0, _ => none
  | fuel + 1, b =>
    match expect (text "\x7d") b with
    | some b => some ([], b)
    | none => do
      let b ← expect (text ",") b
      let (p, b) ← readMember b
      let (ps, b) ← readMembers fuel b
      return (p :: ps, b)

def readObject (b : Bytes) : Option (List (String × String) × Bytes) := do
  let b ← expect (text "\x7b") b
  match expect (text "\x7d") b with
  | some b => return ([], b)
  | none =>
    let (p, b) ← readMember b
    let (ps, b) ← readMembers b.length b
    return (p :: ps, b)

theorem readMember_encodeMember (p : String × String) (rest : Bytes) :
    readMember (encodeMember p rest) = some (p, rest) := by
  simp [readMember, encodeMember]

theorem length_lt_encodeMembers (ps : List (String × String)) :
    ps.length < (encodeMembers ps).length := by
  induction ps with
  | nil => decide
  | cons p ps ih =>
    have hcomma : (text ",").length = 1 := by decide
    simp only [encodeMembers, encodeMember, List.length_append, List.length_cons]
    omega

theorem readMembers_encodeMembers (ps : List (String × String)) {fuel : ℕ}
    (h : ps.length < fuel) : readMembers fuel (encodeMembers ps) = some (ps, []) := by
  induction ps generalizing fuel with
  | nil =>
    obtain ⟨fuel, rfl⟩ := Nat.exists_eq_succ_of_ne_zero (Nat.ne_of_gt h)
    rw [encodeMembers, readMembers, expect_append]
  | cons p ps ih =>
    obtain ⟨fuel, rfl⟩ := Nat.exists_eq_succ_of_ne_zero (Nat.ne_of_gt (Nat.zero_lt_of_lt h))
    have hmore : expect (text "\x7d") (text "," ++ encodeMember p (encodeMembers ps)) = none := by
      rw [expect, List.take_append_of_le_length (by decide), if_neg (by decide)]
    have hrest := ih (Nat.lt_of_succ_lt_succ h)
    simp only [encodeMembers, readMembers, hmore, expect_append, readMember_encodeMember, hrest,
      Option.bind_eq_bind, Option.bind_some]
    rfl

theorem readObject_encodeObject (ps : List (String × String)) :
    readObject (encodeObject ps) = some (ps, []) := by
  cases ps with
  | nil => decide
  | cons p ps =>
    have hone : (text "\x7d").length = 1 := by decide
    have hmore : expect (text "\x7d") (encodeMember p (encodeMembers ps)) = none := by
      rw [encodeMember, quote, List.cons_append, expect, hone, List.take_succ_cons, List.take_zero,
        if_neg (by decide)]
    have hrest := readMembers_encodeMembers ps (length_lt_encodeMembers ps)
    simp only [readObject, encodeObject, hmore, expect_append, readMember_encodeMember, hrest,
      Option.bind_eq_bind, Option.bind_some]
    rfl

scoped instance : SerdeJson String where
  toVec s := quote s ++ []
  fromSlice b := finish (readQuoted b)
  fromSlice_toVec s := by rw [readQuoted_quote]; rfl

scoped instance : SerdeJson (List (String × String)) where
  toVec := encodeObject
  fromSlice b := finish (readObject b)
  fromSlice_toVec ps := by rw [readObject_encodeObject]; rfl

end Codec

end Raftoral
