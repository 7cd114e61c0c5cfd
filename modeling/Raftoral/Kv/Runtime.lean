import Raftoral.Raft.Replication

/-!
# The runtime of the key-value store

The model of `kv/runtime.rs`. A write is proposed and returns when its entry was applied at the
node; a read looks at the state machine of the node and may be behind that of the leader. A
caller that stays with one node still sees what it has written, and never goes back.
-/

namespace Raftoral

open RaftNode

namespace KvStateMachine

/-- The value of a key. -/
def get (sm : KvStateMachine) (key : String) : Option String := sm.store.lookup key

def keys (sm : KvStateMachine) : List String := sm.store.map Prod.fst

end KvStateMachine

/-- The key a command writes, and the value it leaves there. -/
def KvCommand.write : KvCommand → String × Option String
  | .set key value => (key, some value)
  | .delete key => (key, none)

/-! ## Reads of a state machine -/

theorem lookup_cons_eq (key k value : String) (store : List (String × String)) :
    ((k, value) :: store).lookup key = if key = k then some value else store.lookup key := by
  rw [List.lookup_cons]
  by_cases h : key = k
  · simp [h]
  · simp [h, beq_eq_false_iff_ne.mpr h]

theorem lookup_filter_ne (key k : String) (store : List (String × String)) :
    (store.filter (·.1 != key)).lookup k = if k = key then none else store.lookup k := by
  induction store with
  | nil => simp
  | cons b store ih =>
    obtain ⟨a, value⟩ := b
    rw [lookup_cons_eq]
    by_cases hakey : a = key
    · rw [List.filter_cons_of_neg (by simpa using hakey), ih]
      by_cases hk : k = key
      · simp [hk]
      · rw [if_neg hk, if_neg hk, if_neg fun h => hk (h.trans hakey)]
    · rw [List.filter_cons_of_pos (by simpa using hakey), lookup_cons_eq, ih]
      by_cases hka : k = a
      · rw [if_pos hka, if_pos hka, if_neg fun h => hakey (hka.symm.trans h)]
      · rw [if_neg hka, if_neg hka]

namespace KvStateMachine

/-- A command writes its key and no other. -/
theorem get_apply (sm : KvStateMachine) (command : KvCommand) (key : String) :
    (sm.apply command).2.get key =
      if key = command.write.1 then command.write.2 else sm.get key := by
  cases command with
  | set k value =>
    show List.lookup key ((k, value) :: sm.store.filter (·.1 != k)) = _
    rw [lookup_cons_eq, lookup_filter_ne]
    by_cases hkey : key = k
    · simp [KvCommand.write, hkey]
    · simp [KvCommand.write, hkey, get]
  | delete k =>
    show List.lookup key (sm.store.filter (·.1 != k)) = _
    rw [lookup_filter_ne]
    rfl

theorem nodup_keys_apply {sm : KvStateMachine} (h : sm.keys.Nodup) (command : KvCommand) :
    (sm.apply command).2.keys.Nodup := by
  have hfilter : ∀ k, ((sm.store.filter (·.1 != k)).map Prod.fst).Nodup := fun k =>
    h.sublist (List.filter_sublist.map Prod.fst)
  cases command with
  | set k value =>
    show ((k, value) :: sm.store.filter (·.1 != k)).map Prod.fst |>.Nodup
    rw [List.map_cons, List.nodup_cons]
    refine ⟨fun hmem => ?_, hfilter k⟩
    obtain ⟨b, hb, rfl⟩ := List.mem_map.mp hmem
    simpa using List.of_mem_filter hb
  | delete k => exact hfilter k

theorem mem_keys (sm : KvStateMachine) (key : String) :
    key ∈ sm.keys ↔ (sm.get key).isSome := by
  unfold keys get
  induction sm.store with
  | nil => simp
  | cons b store ih =>
    obtain ⟨k, value⟩ := b
    rw [List.map_cons, List.mem_cons, ih, lookup_cons_eq]
    by_cases hkey : key = k
    · simp [hkey]
    · simp [hkey]

end KvStateMachine

section
variable [SerdeJson KvCommand]

/-- What an entry leaves under a key, if its command writes the key. -/
def Entry.written (key : String) (e : Entry) : Option (Option String) :=
  if e.isCommand then
    match (SerdeJson.fromSlice e.data : Except String KvCommand) with
    | .ok command => if key = command.write.1 then some command.write.2 else none
    | .error _ => none
  else none

variable [SerdeJson (List (String × String))]

/-- The state machine after one entry more. -/
def KvStateMachine.applyEntry (sm : KvStateMachine) (e : Entry) : KvStateMachine :=
  if e.isCommand then (applyCommand sm e.data).2 else sm

theorem KvStateMachine.applyEntry_cases (sm : KvStateMachine) (e : Entry) :
    sm.applyEntry e = sm ∧ (∀ key, e.written key = none) ∨
      ∃ command, sm.applyEntry e = (sm.apply command).2 ∧
        ∀ key, e.written key = if key = command.write.1 then some command.write.2 else none := by
  unfold KvStateMachine.applyEntry Entry.written applyCommand
  by_cases hcommand : e.isCommand
  · simp only [if_pos hcommand]
    cases (SerdeJson.fromSlice e.data : Except String KvCommand) with
    | ok command =>
      refine Or.inr ⟨command, ?_, fun key => rfl⟩
      cases command with
      | set => rfl
      | delete => rfl
    | error reason => exact Or.inl ⟨rfl, fun _ => rfl⟩
  · exact Or.inl ⟨if_neg hcommand, fun _ => if_neg hcommand⟩

theorem KvStateMachine.get_applyEntry (sm : KvStateMachine) (e : Entry) (key : String) :
    (sm.applyEntry e).get key = (e.written key).getD (sm.get key) := by
  rcases sm.applyEntry_cases e with ⟨heq, hnone⟩ | ⟨command, heq, hwritten⟩
  · rw [heq, hnone, Option.getD_none]
  · rw [heq, hwritten, sm.get_apply]
    split <;> rfl

theorem KvStateMachine.nodup_keys_replay (es : List Entry) :
    (replay ({} : KvStateMachine) es).keys.Nodup := by
  induction es using List.reverseRecOn with
  | nil => exact List.nodup_nil
  | append_singleton es e ih =>
    have hreplay : replay ({} : KvStateMachine) (es ++ [e]) =
        (replay ({} : KvStateMachine) es).applyEntry e := by
      rw [replay, List.foldl_append]
      rfl
    rw [hreplay]
    rcases (replay ({} : KvStateMachine) es).applyEntry_cases e with ⟨heq, -⟩ | ⟨command, heq, -⟩
    · rwa [heq]
    · rw [heq]
      exact nodup_keys_apply ih command

end

/-! ## The runtime of a node -/

/-- The nodes of a cluster that holds a store. -/
abbrev KvRuntimes := Replicas KvStateMachine KvCommand KvEvent

namespace KvRuntimes

section
variable (s : KvRuntimes) (i : ℕ)

/-- The position in the log that a node has got to. -/
def position : ℕ := (s.cluster.nodes i).delivered

def get (key : String) : Option String := (s.cluster.nodes i).node.stateMachine.get key

def keys : List String := (s.cluster.nodes i).node.stateMachine.keys

def getAll : List (String × String) :=
  (s.keys i).filterMap fun key => (s.get i key).map fun value => (key, value)

theorem mem_getAll {key value : String} :
    (key, value) ∈ s.getAll i ↔ s.get i key = some value := by
  unfold getAll
  rw [List.mem_filterMap]
  constructor
  · rintro ⟨k, -, hk⟩
    obtain ⟨v, hv, hpair⟩ := Option.map_eq_some_iff.mp hk
    obtain ⟨rfl, rfl⟩ := Prod.mk.inj hpair
    exact hv
  · intro h
    refine ⟨key, (KvStateMachine.mem_keys _ key).mpr ?_, by rw [h]; rfl⟩
    exact Option.isSome_iff_exists.mpr ⟨value, h⟩

variable [SerdeJson KvCommand]

/-- A read of the key gives what was written at this position or later: what the last entry left
there that the node has applied. -/
def ReadsFrom (log : List Entry) (key : String) (j : ℕ) : Prop :=
  ∃ k e, j ≤ k ∧ k < s.position i ∧ log[k]? = some e ∧ e.written key = some (s.get i key) ∧
    ∀ (l : ℕ) (x : Entry), k < l → l < s.position i → log[l]? = some x → x.written key = none

end

/-! ## What a caller sees -/

section
variable [SerdeJson KvCommand] [SerdeJson (List (String × String))]

section
variable [ProstMessage Snapshot] {log : List Entry} {s t : KvRuntimes} {i : ℕ}

theorem readsFrom (h : s.Replicated log {}) (hrunning : (s.cluster.nodes i).running) {key : String}
    {j : ℕ} {e : Entry} (hj : j < s.position i) (he : log[j]? = some e)
    (hwritten : (e.written key).isSome) : s.ReadsFrom i log key j := by
  obtain ⟨k, w, hjk, hk, hw, hread, hlater⟩ := Replay.exists_last_write
    (fun sm e key => KvStateMachine.get_applyEntry sm e key) hj he hwritten {}
  refine ⟨k, w, hjk, hk, hw, hread.trans ?_, hlater⟩
  show _ = some ((s.cluster.nodes i).node.stateMachine.get key)
  rw [(h.nodes i hrunning).machine]
  rfl

/-- Further on in the log a read gives no older value. -/
theorem ReadsFrom.mono (ht : t.Replicated log {}) (hrunning : (t.cluster.nodes i).running)
    (hle : s.position i ≤ t.position i) {key : String} {j : ℕ} (h : s.ReadsFrom i log key j) :
    t.ReadsFrom i log key j := by
  obtain ⟨k, e, hjk, hk, he, hread, -⟩ := h
  obtain ⟨k', e', hkk', hk', he', hread', hlater⟩ :=
    readsFrom ht hrunning (hk.trans_le hle) he (by rw [hread]; rfl)
  exact ⟨k', e', hjk.trans hkk', hk', he', hread', hlater⟩

theorem get_of_unwritten (h : s.Replicated log {}) (hrunning : (s.cluster.nodes i).running)
    {key : String} (hno : ∀ e ∈ log.take (s.position i), e.written key = none) :
    s.get i key = none := by
  show (s.cluster.nodes i).node.stateMachine.get key = none
  rw [(h.nodes i hrunning).machine]
  exact Replay.get_of_unwritten (fun sm e key => KvStateMachine.get_applyEntry sm e key) hno {}

end

section
variable [ProstMessage ConfChange] [SerdeJson NodeMetadata] {log : List Entry} {s t : KvRuntimes}
  {i : ℕ}

/-- The entry of a write that was proposed. -/
theorem written_of_payload {e : Entry} {p : Submission KvCommand} {command : KvCommand}
    (hrequest : p.request = .command command) (hpayload : e.payload = p.payload)
    (hdata : e.data ≠ []) : e.written command.write.1 = some command.write.2 ∧
      ∀ n : RaftNode KvStateMachine KvEvent RocksDBStorage, entryResult e n = .ok () := by
  unfold Submission.payload at hpayload
  rw [hrequest] at hpayload
  obtain ⟨htype, hbytes, -⟩ := Payload.mk.inj hpayload
  have hcommand : e.isCommand = true := by
    unfold Entry.isCommand
    rw [htype]
    simpa using hdata
  refine ⟨?_, fun n => ?_⟩
  · rw [Entry.written, if_pos hcommand, hbytes, SerdeJson.fromSlice_toVec]
    simp
  · unfold entryResult applyCommand
    rw [htype, hbytes, SerdeJson.fromSlice_toVec]
    cases command with
    | set => rfl
    | delete => rfl

/-- What a caller that stays with one node can rely on, from the first state to the second: a
write that was answered succeeded and is read, or a later one is; reads go no further back; and
the three ways to read agree. -/
structure Session (log : List Entry) (s t : KvRuntimes) (i : ℕ) : Prop where
  ownWrites : ∀ p ∈ s.cluster.proposals, ∀ command r, p.request = .command command →
    .complete p.syncId r ∈ (s.cluster.nodes i).node.trace → r = .ok () ∧
      ∃ j e, log[j]? = some e ∧ e.payload = p.payload ∧ s.ReadsFrom i log command.write.1 j
  monotonic : ∀ key j, s.ReadsFrom i log key j → t.ReadsFrom i log key j
  unwritten : ∀ key, (∀ e ∈ log.take (s.position i), e.written key = none) → s.get i key = none
  getAll : ∀ key value, (key, value) ∈ s.getAll i ↔ s.get i key = some value
  keys : ∀ key, key ∈ s.keys i ↔ (s.get i key).isSome
  distinct : (s.keys i).Nodup

variable [ProstMessage Entry] [ProstMessage HardState] [ProstMessage ConfState]
  [ProstMessage Snapshot] [ProstMessage Message]

theorem session_of_run (hlog : Numbered log) {configs : ℕ → RaftNodeConfig} {peers : ℕ → Peers}
    {confStates : ℕ → ConfState} {stores : ℕ → RocksDBStorage}
    (hstores : ∀ i, (stores i).db.snapshotData = none)
    {before after : List (ReplicasOp KvStateMachine KvCommand)}
    (hfollows : Transition.Along Replicas.step (Replicas.Follows log {})
      (Replicas.start {} configs peers confStates stores) (before ++ after))
    (hsends : Transition.Along Replicas.step Replicas.SendsRight
      (Replicas.start {} configs peers confStates stores) (before ++ after))
    (hlaw : Transition.Along Replicas.step Replicas.Lawful
      (Replicas.start {} configs peers confStates stores) before)
    (hs : Transition.run Replicas.step (Replicas.start {} configs peers confStates stores) before =
      some s)
    (ht : Transition.run Replicas.step s after = some t)
    (hspares : ∀ op ∈ after, Replicas.Spares i op) (hrunning : (s.cluster.nodes i).running)
    (hrunning' : (t.cluster.nodes i).running) : Session log s t i := by
  have hbefore := (Transition.along_append hs).mp hfollows
  have hreplicated : s.Replicated log {} := Replicas.replicated_of_run hlog
    Replicas.restorable_kv hstores hbefore.1 ((Transition.along_append hs).mp hsends).1 hs
  have hreplicated' : t.Replicated log {} := by
    refine Replicas.replicated_of_run hlog Replicas.restorable_kv hstores hfollows hsends ?_
    rw [Transition.run_append, hs]
    exact ht
  have hsound := Replicas.sound_of_run hlaw hs
  refine ⟨fun p hp command r hrequest hanswered => ?_, fun key j h => ?_, fun key hno => ?_,
    fun key value => mem_getAll _ _, fun key => KvStateMachine.mem_keys _ key, ?_⟩
  · obtain ⟨j, e, n, hj, he, hpayload, hdata, hresult⟩ :=
      Replicas.answered_in_log hsound hreplicated hrunning hp hanswered
    obtain ⟨hwritten, hok⟩ := written_of_payload hrequest hpayload hdata
    refine ⟨hresult.trans (hok n), j, e, he, hpayload, ?_⟩
    exact readsFrom hreplicated hrunning hj he (by rw [hwritten]; rfl)
  · exact h.mono hreplicated' hrunning' (Replicas.delivered_le_of_run hlog hbefore.2 hspares ht)
  · exact get_of_unwritten hreplicated hrunning hno
  · show (s.cluster.nodes i).node.stateMachine.keys.Nodup
    rw [(hreplicated.nodes i hrunning).machine]
    exact KvStateMachine.nodup_keys_replay _

end

end

section
open scoped Codec
open Replicas
open ProposalCluster (takesAll localEntry forwardedEntry)

instance (s : Replicas KvStateMachine KvCommand KvEvent) :
    (op : ReplicasOp KvStateMachine KvCommand) → Decidable (s.Lawful op)
  | .cluster a => inferInstanceAs (Decidable (s.cluster.Lawful a))
  | .sendSnapshot _ _ => isTrue trivial

/-- Node 1 is the leader. A caller sets a key there, and one at node 2 sets another. -/
def twoWrites : List (ReplicasOp KvStateMachine KvCommand) :=
  [.cluster (.node 1 (.call (.propose takesAll 7 (.set "a" "b")))),
   .cluster (.forward 2 9 (.set "c" "d")),
   .cluster (.node 1 (.message takesAll
     ⟨0, some (.propose (SerdeJson.toVec (KvCommand.set "c" "d")) 9)⟩)),
   .cluster (.node 1 (.ready { ready := { committedEntries := [localEntry] }
                               applyConfChange := fun _ => .error "no configuration change" }))]

def secondWrite : List (ReplicasOp KvStateMachine KvCommand) :=
  [.cluster (.node 1 (.ready { ready := { committedEntries := [forwardedEntry] }
                               applyConfChange := fun _ => .error "no configuration change" }))]

theorem session_twoWrites : ∃ s t : KvRuntimes, Transition.run step kvReplicas twoWrites = some s ∧
    Transition.run step s secondWrite = some t ∧ s.getAll 1 = [("a", "b")] ∧
    t.getAll 1 = [("c", "d"), ("a", "b")] ∧
    Session [localEntry, forwardedEntry] s t 1 := by
  have hsome : ((Transition.run step kvReplicas twoWrites).map fun s =>
      (KvRuntimes.getAll s 1, (s.cluster.nodes 1).running)) = some ([("a", "b")], true) := by decide
  have hsome' : ((Transition.run step kvReplicas (twoWrites ++ secondWrite)).map fun t =>
      (KvRuntimes.getAll t 1, (t.cluster.nodes 1).running)) =
        some ([("c", "d"), ("a", "b")], true) := by decide
  obtain ⟨s, hs, hread⟩ := Option.map_eq_some_iff.mp hsome
  obtain ⟨t, ht, hread'⟩ := Option.map_eq_some_iff.mp hsome'
  rw [Transition.run_append, hs, Option.bind_some] at ht
  obtain ⟨hread, hrunning⟩ := Prod.mk.inj hread
  obtain ⟨hread', hrunning'⟩ := Prod.mk.inj hread'
  refine ⟨s, t, hs, ht, hread, hread', session_of_run (by decide) (fun _ => rfl) (by decide)
    (by decide) (by decide) hs ht (fun op hop => ?_) hrunning hrunning'⟩
  obtain rfl := List.mem_singleton.mp hop
  trivial

end

end KvRuntimes

end Raftoral
