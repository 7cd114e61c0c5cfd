import Raftoral.Lib.Run
import Raftoral.Raft.MessageSending

/-!
# The delivery of messages between nodes

What the calls of `send_message` put into the mailboxes. Each message lies there once, in the order
of its task unless its call has failed (`Filed`). Where the addresses that the nodes know lead to
the nodes they are for, it lies with the node and the cluster that it was sent to (`Addressed`).
-/

namespace Raftoral

namespace Nodes

/-! ## Mailboxes and calls -/

/-- The calls whose message is in a mailbox, or was, in the order of their delivery. -/
def filed (s : Nodes) (nodeId : ℕ) (tx : Mailbox) : List ℕ :=
  (s.mailboxes nodeId tx).sent.map Letter.call

/-- A task's messages are in the order of its calls, but for those whose call failed. -/
def InOrder (s : Nodes) (k l : ℕ) : Prop :=
  ∀ c d, s.calls[k]? = some c → s.calls[l]? = some d → c.task = d.task → k < l ∨ d.Failed

/-- The mailboxes hold what was delivered, each message once. -/
structure Filed (s : Nodes) : Prop where
  origin : ∀ nodeId tx, ∀ letter ∈ (s.mailboxes nodeId tx).sent, ∃ c,
    s.calls[letter.call]? = some c ∧ c.handler = .delivered nodeId tx ∧ letter.message = c.message
  arrived : ∀ k c nodeId tx, s.calls[k]? = some c → c.handler = .delivered nodeId tx →
    k ∈ s.filed nodeId tx
  nodup : ∀ nodeId tx, (s.filed nodeId tx).Nodup
  order : ∀ nodeId tx, (s.filed nodeId tx).Pairwise s.InOrder
  bounded : ∀ nodeId tx, (s.mailboxes nodeId tx).Bounded
  sound : ∀ c ∈ s.calls, c.Sound s.protocol
  sequential : ∀ (k l : ℕ) (c d : SendCall), k < l → s.calls[k]? = some c → s.calls[l]? = some d →
    c.task = d.task → c.client.isReturned

theorem filed_new (protocol : Protocol) (capacity : ℕ → Mailbox → ℕ) :
    Filed (new protocol capacity) := by
  refine ⟨?_, ?_, ?_, ?_, ?_, ?_, ?_⟩ <;> simp [new, filed, Channel.Bounded]

theorem Filed.mem_filed {s : Nodes} (hs : s.Filed) {k nodeId : ℕ} {tx : Mailbox}
    (h : k ∈ s.filed nodeId tx) : ∃ c, s.calls[k]? = some c ∧ c.handler = .delivered nodeId tx := by
  obtain ⟨letter, hletter, rfl⟩ := List.mem_map.mp h
  obtain ⟨c, hc, hdelivered, -⟩ := hs.origin nodeId tx letter hletter
  exact ⟨c, hc, hdelivered⟩

/-- What became of a call. -/
theorem exists_continues_of_set {calls : List SendCall} {k l : ℕ} {c c' d' : SendCall}
    (hk : calls[k]? = some c) (hcontinues : c.Continues c') (hl : (calls.set k c')[l]? = some d') :
    ∃ d, calls[l]? = some d ∧ d.Continues d' := by
  have hlt : k < calls.length := (List.getElem?_eq_some_iff.mp hk).1
  by_cases hkl : k = l
  · subst hkl
    rw [List.getElem?_set_self hlt, Option.some.injEq] at hl
    exact ⟨c, hk, hl ▸ hcontinues⟩
  · rw [List.getElem?_set_ne hkl] at hl
    exact ⟨d', hl, ⟨rfl, rfl, rfl, fun _ => rfl⟩⟩

theorem InOrder.continues {s s' : Nodes} {k l : ℕ} (h : s.InOrder k l)
    (hback : ∀ (j : ℕ) (d' : SendCall), j = k ∨ j = l → s'.calls[j]? = some d' →
      ∃ d, s.calls[j]? = some d ∧ d.Continues d') : s'.InOrder k l := by
  intro c' d' hc' hd' htask
  obtain ⟨c, hc, hcc'⟩ := hback k c' (Or.inl rfl) hc'
  obtain ⟨d, hd, hdd'⟩ := hback l d' (Or.inr rfl) hd'
  rcases h c d hc hd (by rw [← hcc'.task, ← hdd'.task, htask]) with hlt | hfailed
  · exact Or.inl hlt
  · exact Or.inr (hdd'.failed hfailed)

/-- The calls of a task stay one after the other while a call goes on. -/
theorem sequential_set {s : Nodes} (hs : s.Filed) {k : ℕ} {c c' : SendCall}
    (hk : s.calls[k]? = some c) (hcontinues : c.Continues c') (i j : ℕ) (d' e' : SendCall)
    (hij : i < j) (hi : (s.calls.set k c')[i]? = some d') (hj : (s.calls.set k c')[j]? = some e')
    (htask : d'.task = e'.task) : d'.client.isReturned := by
  obtain ⟨d, hd, hdd'⟩ := exists_continues_of_set hk hcontinues hi
  obtain ⟨e, he, hee'⟩ := exists_continues_of_set hk hcontinues hj
  have hreturned := hs.sequential i j d e hij hd he (by rw [← hdd'.task, ← hee'.task, htask])
  rw [hdd'.returned hreturned]
  exact hreturned

/-- A call that goes on, while nothing is delivered. -/
theorem Filed.call {s : Nodes} (hs : s.Filed) {k : ℕ} {c c' : SendCall} (hk : s.calls[k]? = some c)
    (hadvanced : Advanced s c c') : Filed { s with calls := s.calls.set k c' } := by
  have hlt : k < s.calls.length := (List.getElem?_eq_some_iff.mp hk).1
  have hcontinues := hadvanced.continues
  refine ⟨fun nodeId tx letter hletter => ?_, fun l d' nodeId tx hl hdelivered => ?_, hs.nodup,
    fun nodeId tx => ?_, hs.bounded, fun d' hd' => ?_, sequential_set hs hk hcontinues⟩
  · obtain ⟨d, hd, hdelivered, hmessage⟩ := hs.origin nodeId tx letter hletter
    by_cases hkl : k = letter.call
    · rw [← hkl, hk, Option.some.injEq] at hd
      subst hd
      refine ⟨c', ?_, (hadvanced.delivered_iff nodeId tx).mpr hdelivered, ?_⟩
      · rw [← hkl]
        exact List.getElem?_set_self hlt
      · rw [hcontinues.message, hmessage]
    · exact ⟨d, by simpa [hkl] using hd, hdelivered, hmessage⟩
  · by_cases hkl : k = l
    · subst hkl
      simp only [List.getElem?_set_self hlt, Option.some.injEq] at hl
      subst hl
      exact hs.arrived k c nodeId tx hk ((hadvanced.delivered_iff nodeId tx).mp hdelivered)
    · simp only [List.getElem?_set_ne hkl] at hl
      exact hs.arrived l d' nodeId tx hl hdelivered
  · exact (hs.order nodeId tx).imp fun hinOrder => hinOrder.continues fun j d' _ hj =>
      exists_continues_of_set hk hcontinues hj
  · rcases List.mem_or_eq_of_mem_set hd' with hmem | rfl
    · exact hs.sound d' hmem
    · exact hadvanced.sound (hs.sound c (List.mem_of_getElem? hk))

/-- A task makes a call. -/
theorem Filed.sendMessage {s : Nodes} (hs : s.Filed) {task nodeId targetNodeId : ℕ}
    {message : GenericMessage}
    (hreturned : ∀ c ∈ s.calls, c.task = task → c.client.isReturned) :
    Filed { s with calls := s.calls ++ [s.newCall task nodeId targetNodeId message] } := by
  have hold : ∀ {l : ℕ} {d : SendCall}, s.calls[l]? = some d →
      (s.calls ++ [s.newCall task nodeId targetNodeId message])[l]? = some d := by
    intro l d hl
    rw [List.getElem?_append_left (List.getElem?_eq_some_iff.mp hl).1, hl]
  -- the new call has the last number
  have hcases : ∀ {l : ℕ} {d : SendCall},
      (s.calls ++ [s.newCall task nodeId targetNodeId message])[l]? = some d →
      s.calls[l]? = some d ∨ l = s.calls.length ∧
        d = s.newCall task nodeId targetNodeId message := by
    intro l d hl
    rcases Nat.lt_trichotomy l s.calls.length with hlt | heq | hgt
    · rw [List.getElem?_append_left hlt] at hl
      exact Or.inl hl
    · subst heq
      rw [List.getElem?_concat_length, Option.some.injEq] at hl
      exact Or.inr ⟨rfl, hl.symm⟩
    · rw [List.getElem?_eq_none (by simp; omega)] at hl
      exact absurd hl (by simp)
  have htask : (s.newCall task nodeId targetNodeId message).task = task := by
    unfold newCall
    cases s.peers nodeId targetNodeId <;> rfl
  refine ⟨fun n tx letter hletter => ?_, fun l d n tx hl hdelivered => ?_, hs.nodup,
    fun n tx => ?_, hs.bounded, fun d hd => ?_, fun i j d e hij hi hj hsame => ?_⟩
  · obtain ⟨d, hd, hrest⟩ := hs.origin n tx letter hletter
    exact ⟨d, hold hd, hrest⟩
  · rcases hcases hl with hl | ⟨-, rfl⟩
    · exact hs.arrived l d n tx hl hdelivered
    · exact absurd hdelivered (s.newCall_not_delivered task nodeId targetNodeId n message tx)
  · refine List.Pairwise.imp_of_mem (fun {a b} ha hb hinOrder => ?_) (hs.order n tx)
    refine hinOrder.continues fun j d' hj hd' => ?_
    have hmem : j ∈ s.filed n tx := by
      rcases hj with rfl | rfl
      · exact ha
      · exact hb
    obtain ⟨d, hd, -⟩ := hs.mem_filed hmem
    have heq := (hold hd).symm.trans hd'
    exact ⟨d, hd, Option.some.inj heq ▸ ⟨rfl, rfl, rfl, fun _ => rfl⟩⟩
  · rcases List.mem_append.mp hd with hmem | hmem
    · exact hs.sound d hmem
    · rw [List.mem_singleton.mp hmem]
      exact s.sound_newCall task nodeId targetNodeId message
  -- the calls of its task before it have returned
  · rcases hcases hj with hj | ⟨hlast, rfl⟩
    · have hlt : i < s.calls.length := hij.trans (List.getElem?_eq_some_iff.mp hj).1
      rcases hcases hi with hi | ⟨heq, -⟩
      · exact hs.sequential i j d e hij hi hj hsame
      · omega
    · rcases hcases hi with hi | ⟨heq, -⟩
      · exact hreturned d (List.mem_of_getElem? hi) (hsame.trans htask)
      · omega

/-- What is in the mailboxes behind a delivery. -/
theorem filed_setMailbox {s : Nodes} {nodeId k : ℕ} {tx : Mailbox} {message : GenericMessage}
    {mailbox : Channel Letter} (hsend : (s.mailboxes nodeId tx).send ⟨k, message⟩ = some mailbox)
    (n : ℕ) (t : Mailbox) : (s.setMailbox nodeId tx mailbox).filed n t =
      if n = nodeId ∧ t = tx then s.filed n t ++ [k] else s.filed n t := by
  unfold filed
  rw [mailboxes_setMailbox]
  split
  next heq =>
    obtain ⟨rfl, rfl⟩ := heq
    rw [Channel.sent_send hsend, List.map_append]
    rfl
  next => rfl

/-- A message is delivered. -/
theorem Filed.deliver {s : Nodes} (hs : s.Filed) {k nodeId : ℕ} {tx : Mailbox} {c : SendCall}
    {message : GenericMessage} {mailbox : Channel Letter} (hk : s.calls[k]? = some c)
    (hholding : c.handler = .holding nodeId tx message)
    (hsend : (s.mailboxes nodeId tx).send ⟨k, message⟩ = some mailbox) :
    Filed { s.setMailbox nodeId tx mailbox with
      calls := s.calls.set k { c with handler := .delivered nodeId tx } } := by
  have hlt : k < s.calls.length := (List.getElem?_eq_some_iff.mp hk).1
  have hcsound := hs.sound c (List.mem_of_getElem? hk)
  have hcontinues : c.Continues { c with handler := .delivered nodeId tx } :=
    ⟨rfl, rfl, rfl, fun _ => rfl⟩
  -- the call was in no mailbox before
  have hnew : ∀ n t, k ∉ s.filed n t := by
    intro n t hmem
    obtain ⟨d, hd, hdelivered⟩ := hs.mem_filed hmem
    rw [hk, Option.some.injEq] at hd
    subst hd
    simp [hholding] at hdelivered
  -- a task that has called since was told of an error
  have hlast : ∀ n t, ∀ l ∈ s.filed n t, s.InOrder l k := by
    intro n t l hl d e hd he htask
    rw [hk, Option.some.injEq] at he
    subst he
    rcases Nat.lt_trichotomy l k with hlk | rfl | hkl
    · exact Or.inl hlk
    · exact absurd hl (hnew n t)
    · have hreturned := hs.sequential k l c d hkl hk hd htask.symm
      refine Or.inr ?_
      cases hclient : c.client with
      | returned result =>
        cases result with
        | ok _ =>
          obtain ⟨m, u, hdelivered⟩ := hcsound.ok hclient
          simp [hholding] at hdelivered
        | error e => exact ⟨e, hclient⟩
      | _ => simp [hclient, Client.isReturned] at hreturned
  have horder : ∀ n t, (s.filed n t).Pairwise fun a b => InOrder { s.setMailbox nodeId tx mailbox with
      calls := s.calls.set k { c with handler := .delivered nodeId tx } } a b := by
    intro n t
    exact (hs.order n t).imp fun hinOrder => hinOrder.continues fun j d' _ hj =>
      exists_continues_of_set hk hcontinues hj
  refine ⟨fun n t letter hletter => ?_, fun l d n t hl hdelivered => ?_, fun n t => ?_,
    fun n t => ?_, bounded_setMailbox hs.bounded (.send hsend), fun d hd => ?_,
    sequential_set hs hk hcontinues⟩
  · by_cases hkl : k = letter.call
    · by_cases hplace : n = nodeId ∧ t = tx
      · obtain ⟨rfl, rfl⟩ := hplace
        refine ⟨{ c with handler := .delivered n t }, ?_, rfl, ?_⟩
        · rw [← hkl]
          exact List.getElem?_set_self hlt
        · simp only [mailboxes_setMailbox, and_self, if_true, Channel.sent_send hsend,
            List.mem_append, List.mem_singleton] at hletter
          rcases hletter with hold | rfl
          · exact absurd (List.mem_map.mpr ⟨letter, hold, hkl.symm⟩) (hnew n t)
          · exact hcsound.holding n t message hholding
      · simp only [mailboxes_setMailbox, if_neg hplace] at hletter
        exact absurd (List.mem_map.mpr ⟨letter, hletter, hkl.symm⟩) (hnew n t)
    · have hold : letter ∈ (s.mailboxes n t).sent := by
        simp only [mailboxes_setMailbox] at hletter
        split at hletter
        next heq =>
          obtain ⟨rfl, rfl⟩ := heq
          rw [Channel.sent_send hsend, List.mem_append, List.mem_singleton] at hletter
          rcases hletter with hold | rfl
          · exact hold
          · exact absurd rfl hkl
        next => exact hletter
      obtain ⟨d, hd, hrest⟩ := hs.origin n t letter hold
      exact ⟨d, by simpa [hkl] using hd, hrest⟩
  · show l ∈ (s.setMailbox nodeId tx mailbox).filed n t
    rw [filed_setMailbox hsend]
    by_cases hkl : k = l
    · subst hkl
      simp only [List.getElem?_set_self hlt, Option.some.injEq] at hl
      subst hl
      obtain ⟨rfl, rfl⟩ := Handler.delivered.inj hdelivered
      simp
    · simp only [List.getElem?_set_ne hkl] at hl
      have hmem := hs.arrived l d n t hl hdelivered
      split
      next => exact List.mem_append_left _ hmem
      next => exact hmem
  · show ((s.setMailbox nodeId tx mailbox).filed n t).Nodup
    rw [filed_setMailbox hsend]
    split
    next =>
      rw [← List.concat_eq_append]
      exact (hs.nodup n t).concat (hnew n t)
    next => exact hs.nodup n t
  · show ((s.setMailbox nodeId tx mailbox).filed n t).Pairwise _
    rw [filed_setMailbox hsend]
    split
    next =>
      refine List.pairwise_append.mpr ⟨horder n t, List.pairwise_singleton _ _, fun a ha b hb => ?_⟩
      rw [List.mem_singleton.mp hb]
      exact (hlast n t a ha).continues fun j d' _ hj => exists_continues_of_set hk hcontinues hj
    next => exact horder n t
  · rcases List.mem_or_eq_of_mem_set hd with hmem | rfl
    · exact hs.sound d hmem
    · exact hcsound.delivered hholding

theorem Filed.step [ProstMessage GenericMessage] [SerdeJson JsonGenericMessage] {s s' : Nodes}
    {op : NodesOp} (hs : s.Filed) (h : s.step op = some s') : s'.Filed := by
  cases stepped h with
  | others hprotocol hcalls hsent hbounded =>
    have hfiled : ∀ n t, s'.filed n t = s.filed n t := by
      intro n t
      rw [filed, filed, hsent]
    refine ⟨?_, ?_, ?_, ?_, hbounded hs.bounded, ?_, ?_⟩
    · simpa only [hsent, hcalls] using hs.origin
    · simpa only [hfiled, hcalls] using hs.arrived
    · simpa only [hfiled] using hs.nodup
    · intro n t
      rw [hfiled]
      exact (hs.order n t).imp fun hinOrder c d => by simpa only [hcalls] using hinOrder c d
    · simpa only [hprotocol, hcalls] using hs.sound
    · simpa only [hcalls] using hs.sequential
  | sendMessage hreturned => exact hs.sendMessage hreturned
  | call hk hadvanced => exact hs.call hk hadvanced
  | deliver hk hholding hsend => exact hs.deliver hk hholding hsend

/-! ## Addresses -/

/-- The configuration: a peer is registered with, and a node serves at, the address that is the
node's home, and a mailbox is registered for one cluster. -/
def Configured (home : ℕ → String) (clusterOf : ℕ → Mailbox → ℕ) : NodesOp → Prop
  | .addPeer _ peer address => address = home peer
  | .listen address nodeId => address = home nodeId
  | .registerCluster nodeId clusterId tx => clusterOf nodeId tx = clusterId
  | _ => True

instance (home : ℕ → String) (clusterOf : ℕ → Mailbox → ℕ) :
    (op : NodesOp) → Decidable (Configured home clusterOf op)
  | .addPeer _ peer address => inferInstanceAs (Decidable (address = home peer))
  | .listen address nodeId => inferInstanceAs (Decidable (address = home nodeId))
  | .registerCluster nodeId clusterId tx =>
    inferInstanceAs (Decidable (clusterOf nodeId tx = clusterId))
  | .removePeer _ _ | .shutDown _ | .unregisterCluster _ _ | .take _ _ | .close _ _
  | .sendMessage _ _ _ _ | .call _ _ | .deliver _ => isTrue trivial

/-- A message on its way is on the way to its addressee. -/
structure OnTheWay (home : ℕ → String) (clusterOf : ℕ → Mailbox → ℕ) (c : SendCall) : Prop where
  idle : c.handler = .idle → c.address = home c.targetNodeId
  holding : ∀ nodeId tx message, c.handler = .holding nodeId tx message →
    nodeId = c.targetNodeId ∧ clusterOf nodeId tx = c.message.clusterId
  delivered : ∀ nodeId tx, c.handler = .delivered nodeId tx →
    nodeId = c.targetNodeId ∧ clusterOf nodeId tx = c.message.clusterId

structure Addressed (home : ℕ → String) (clusterOf : ℕ → Mailbox → ℕ) (s : Nodes) : Prop where
  peers : ∀ nodeId peer address, s.peers nodeId peer = some address → address = home peer
  servers : ∀ address nodeId, s.servers address = some nodeId → address = home nodeId
  routes : ∀ nodeId clusterId tx, (s.routers nodeId).routes clusterId = some tx →
    clusterOf nodeId tx = clusterId
  calls : ∀ c ∈ s.calls, OnTheWay home clusterOf c

theorem addressed_new (home : ℕ → String) (clusterOf : ℕ → Mailbox → ℕ) (protocol : Protocol)
    (capacity : ℕ → Mailbox → ℕ) : Addressed home clusterOf (new protocol capacity) := by
  refine ⟨?_, ?_, ?_, ?_⟩ <;> simp [new]

section
variable {home : ℕ → String} {clusterOf : ℕ → Mailbox → ℕ}

theorem Addressed.newCall {s : Nodes} (hs : s.Addressed home clusterOf)
    (task nodeId targetNodeId : ℕ) (message : GenericMessage) :
    OnTheWay home clusterOf (s.newCall task nodeId targetNodeId message) := by
  unfold Nodes.newCall
  cases hpeer : s.peers nodeId targetNodeId with
  | some address => exact ⟨fun _ => hs.peers nodeId targetNodeId address hpeer, by simp, by simp⟩
  | none => exact ⟨by simp, by simp, by simp⟩

/-- A request goes to the node whose home its address is. -/
theorem Addressed.advanced {s : Nodes} (hs : s.Addressed home clusterOf)
    (hhome : Function.Injective home) {c c' : SendCall} (hc : OnTheWay home clusterOf c)
    (h : Advanced s c c') : OnTheWay home clusterOf c' := by
  cases h with
  | connect | respond | respondRefused | fail => exact ⟨hc.idle, hc.holding, hc.delivered⟩
  | connectFails | refuse | drop => exact ⟨by simp, by simp, by simp⟩
  | @request nodeId hclient hidle hserver =>
    have hnode : nodeId = c.targetNodeId :=
      hhome ((hs.servers c.address nodeId hserver).symm.trans (hc.idle hidle))
    rcases s.route_cases nodeId c.message with ⟨tx, htx, hroute⟩ | hroute
    · have hcluster := hs.routes nodeId c.message.clusterId tx htx
      refine ⟨by simp [hroute], fun n t message hholding => ?_, by simp [hroute]⟩
      rw [hroute] at hholding
      obtain ⟨rfl, rfl, -⟩ := Handler.holding.inj hholding
      exact ⟨hnode, hcluster⟩
    · exact ⟨by simp [hroute], by simp [hroute], by simp [hroute]⟩

/-- A change of a node's row of a table changes what the table holds at one place. -/
theorem forall_update_row {α β : Type} [DecidableEq α] {table : ℕ → α → Option β}
    {P : ℕ → α → β → Prop} (htable : ∀ n a b, table n a = some b → P n a b) {nodeId : ℕ} {k : α}
    {x : Option β} (hx : ∀ b, x = some b → P nodeId k b) (n : ℕ) (a : α) (b : β)
    (h : Function.update table nodeId (Function.update (table nodeId) k x) n a = some b) :
    P n a b := by
  by_cases hn : n = nodeId
  · subst hn
    by_cases ha : a = k
    · subst ha
      simp only [Function.update_self] at h
      exact hx b h
    · simp only [Function.update_self, Function.update_of_ne ha] at h
      exact htable n a b h
  · simp only [Function.update_of_ne hn] at h
    exact htable n a b h

theorem Addressed.setPeer {s : Nodes} (hs : s.Addressed home clusterOf) (nodeId peer : ℕ)
    {x : Option String} (hx : ∀ address, x = some address → address = home peer) :
    Addressed home clusterOf { s with
      peers := Function.update s.peers nodeId (Function.update (s.peers nodeId) peer x) } :=
  ⟨forall_update_row hs.peers hx, hs.servers, hs.routes, hs.calls⟩

theorem Addressed.setServer {s : Nodes} (hs : s.Addressed home clusterOf) (address : String)
    {x : Option ℕ} (hx : ∀ nodeId, x = some nodeId → address = home nodeId) :
    Addressed home clusterOf { s with servers := Function.update s.servers address x } := by
  refine ⟨hs.peers, fun a n hserver => ?_, hs.routes, hs.calls⟩
  by_cases ha : a = address
  · subst ha
    simp only [Function.update_self] at hserver
    exact hx n hserver
  · simp only [Function.update_of_ne ha] at hserver
    exact hs.servers a n hserver

theorem Addressed.setRoute {s : Nodes} (hs : s.Addressed home clusterOf) (nodeId clusterId : ℕ)
    {x : Option Mailbox} (hx : ∀ tx, x = some tx → clusterOf nodeId tx = clusterId) :
    Addressed home clusterOf { s with
      routers := Function.update s.routers nodeId
        { routes := Function.update (s.routers nodeId).routes clusterId x } } := by
  refine ⟨hs.peers, hs.servers, fun n c t hroute => ?_, hs.calls⟩
  by_cases hn : n = nodeId
  · subst hn
    by_cases hc : c = clusterId
    · subst hc
      simp only [Function.update_self] at hroute
      exact hx t hroute
    · simp only [Function.update_self, Function.update_of_ne hc] at hroute
      exact hs.routes n c t hroute
  · simp only [Function.update_of_ne hn] at hroute
    exact hs.routes n c t hroute

theorem Addressed.step [ProstMessage GenericMessage] [SerdeJson JsonGenericMessage] {s s' : Nodes}
    {op : NodesOp} (hs : s.Addressed home clusterOf) (hhome : Function.Injective home)
    (hop : Configured home clusterOf op) (h : s.step op = some s') :
    s'.Addressed home clusterOf := by
  cases op with
  | addPeer nodeId peer address =>
    obtain rfl := Option.some.inj h
    exact hs.setPeer nodeId peer fun a ha => (Option.some.inj ha).symm.trans hop
  | removePeer nodeId peer =>
    obtain rfl := Option.some.inj h
    exact hs.setPeer nodeId peer (by simp)
  | listen address nodeId =>
    obtain rfl := Option.some.inj h
    exact hs.setServer address fun n hn => Option.some.inj hn ▸ hop
  | shutDown address =>
    obtain rfl := Option.some.inj h
    exact hs.setServer address (by simp)
  | registerCluster nodeId clusterId tx =>
    obtain rfl := Option.some.inj h
    exact hs.setRoute nodeId clusterId fun t ht => Option.some.inj ht ▸ hop
  | unregisterCluster nodeId clusterId =>
    obtain rfl := Option.some.inj h
    exact hs.setRoute nodeId clusterId (by simp)
  | take nodeId tx =>
    obtain ⟨mailbox, -, rfl⟩ := Option.map_eq_some_iff.mp h
    exact ⟨hs.peers, hs.servers, hs.routes, hs.calls⟩
  | close nodeId tx =>
    obtain rfl := Option.some.inj h
    exact ⟨hs.peers, hs.servers, hs.routes, hs.calls⟩
  | sendMessage task nodeId targetNodeId message =>
    rw [Nodes.step, Option.ite_none_right_eq_some, Option.some.injEq] at h
    obtain ⟨-, rfl⟩ := h
    refine ⟨hs.peers, hs.servers, hs.routes, fun c hc => ?_⟩
    rcases List.mem_append.mp hc with hmem | hmem
    · exact hs.calls c hmem
    · rw [List.mem_singleton.mp hmem]
      exact hs.newCall task nodeId targetNodeId message
  | call k sendStep =>
    simp only [Nodes.step] at h
    split at h
    next c hk =>
      obtain ⟨c', hadvance, rfl⟩ := Option.map_eq_some_iff.mp h
      refine ⟨hs.peers, hs.servers, hs.routes, fun d hd => ?_⟩
      rcases List.mem_or_eq_of_mem_set hd with hmem | rfl
      · exact hs.calls d hmem
      -- a call is routed by what the peers, servers and routes have said
      · exact hs.advanced hhome (hs.calls c (List.mem_of_getElem? hk)) (Nodes.advanced hadvance)
    next => exact absurd h (by simp)
  | deliver k =>
    simp only [Nodes.step] at h
    split at h
    next c hk =>
      split at h
      next nodeId tx message hholding =>
        obtain ⟨mailbox, -, rfl⟩ := Option.map_eq_some_iff.mp h
        refine ⟨hs.peers, hs.servers, hs.routes, fun d hd => ?_⟩
        rcases List.mem_or_eq_of_mem_set hd with hmem | rfl
        · exact hs.calls d hmem
        · have hc := hs.calls c (List.mem_of_getElem? hk)
          refine ⟨by simp, by simp, fun n t hdelivered => ?_⟩
          obtain ⟨rfl, rfl⟩ := Handler.delivered.inj hdelivered
          exact hc.holding nodeId tx message hholding
      next => exact absurd h (by simp)
    next => exact absurd h (by simp)

end

/-! ## Delivery -/

/-- What callers and receivers can rely on: a mailbox holds messages for its node and cluster,
each of a call that asked for it and each once; a call that succeeds has its message in a mailbox
of the addressee, and one that fails has it nowhere, unless its request broke off. -/
structure Delivers (s : Nodes) (clusterOf : ℕ → Mailbox → ℕ) : Prop where
  origin : ∀ nodeId tx, ∀ letter ∈ (s.mailboxes nodeId tx).sent, ∃ c,
    s.calls[letter.call]? = some c ∧ letter.message = c.message ∧ c.targetNodeId = nodeId ∧
      letter.message.clusterId = clusterOf nodeId tx
  once : ∀ nodeId tx, (s.filed nodeId tx).Nodup
  oneMailbox : ∀ k nodeId tx nodeId' tx', k ∈ s.filed nodeId tx → k ∈ s.filed nodeId' tx' →
    nodeId = nodeId' ∧ tx = tx'
  ok : ∀ (k : ℕ) (c : SendCall), s.calls[k]? = some c → c.client = .returned (.ok ()) →
    ∃ tx, (⟨k, c.message⟩ : Letter) ∈ (s.mailboxes c.targetNodeId tx).sent
  error : ∀ (k : ℕ) (c : SendCall) (e : TransportError), s.calls[k]? = some c →
    c.client = .returned (.error e) → (∀ reason, e ≠ s.protocol.broken reason) →
    ∀ nodeId tx, k ∉ s.filed nodeId tx

theorem Filed.delivers {s : Nodes} (hs : s.Filed) {home : ℕ → String}
    {clusterOf : ℕ → Mailbox → ℕ} (haddressed : s.Addressed home clusterOf) :
    s.Delivers clusterOf := by
  refine ⟨fun nodeId tx letter hletter => ?_, hs.nodup, fun k nodeId tx nodeId' tx' h h' => ?_,
    fun k c hk hclient => ?_, fun k c e hk hclient hbroken nodeId tx hmem => ?_⟩
  · obtain ⟨c, hk, hdelivered, hmessage⟩ := hs.origin nodeId tx letter hletter
    obtain ⟨hnode, hcluster⟩ :=
      (haddressed.calls c (List.mem_of_getElem? hk)).delivered nodeId tx hdelivered
    exact ⟨c, hk, hmessage, hnode.symm, by rw [hmessage, hcluster]⟩
  · obtain ⟨c, hk, hdelivered⟩ := hs.mem_filed h
    obtain ⟨c', hk', hdelivered'⟩ := hs.mem_filed h'
    rw [hk, Option.some.injEq] at hk'
    subst hk'
    exact Handler.delivered.inj (hdelivered.symm.trans hdelivered')
  · obtain ⟨nodeId, tx, hdelivered⟩ := (hs.sound c (List.mem_of_getElem? hk)).ok hclient
    obtain ⟨hnode, -⟩ := (haddressed.calls c (List.mem_of_getElem? hk)).delivered nodeId tx hdelivered
    obtain ⟨letter, hletter, heq⟩ := List.mem_map.mp (hs.arrived k c nodeId tx hk hdelivered)
    obtain ⟨c', hk', -, hmessage⟩ := hs.origin nodeId tx letter hletter
    rw [heq, hk, Option.some.injEq] at hk'
    subst hk' hnode
    obtain ⟨call, message⟩ := letter
    obtain rfl : call = k := heq
    obtain rfl : message = c.message := hmessage
    exact ⟨tx, hletter⟩
  · obtain ⟨c', hk', hdelivered⟩ := hs.mem_filed hmem
    rw [hk, Option.some.injEq] at hk'
    subst hk'
    rcases (hs.sound c (List.mem_of_getElem? hk)).error e hclient with ⟨reason, he⟩ | h | ⟨_, h⟩
    · exact hbroken reason he
    · simp [h] at hdelivered
    · simp [h] at hdelivered

section
variable [ProstMessage GenericMessage] [SerdeJson JsonGenericMessage]

theorem filed_of_run {protocol : Protocol} {capacity : ℕ → Mailbox → ℕ} {ops : List NodesOp}
    {s : Nodes} (hrun : Transition.run step (new protocol capacity) ops = some s) : s.Filed :=
  Transition.run_induction (C := fun _ _ => True) (fun _ _ _ hs _ hstep => hs.step hstep)
    (filed_new protocol capacity) Transition.along_true hrun

/-- Whatever the calls, the nodes, the routers and the mailboxes do, in any order, no message is
lost without its caller being told, none is duplicated and none goes astray. -/
theorem delivers_of_run {home : ℕ → String} {clusterOf : ℕ → Mailbox → ℕ} {protocol : Protocol}
    {capacity : ℕ → Mailbox → ℕ} {ops : List NodesOp} {s : Nodes}
    (hhome : Function.Injective home) (hops : ∀ op ∈ ops, Configured home clusterOf op)
    (hrun : Transition.run step (new protocol capacity) ops = some s) : s.Delivers clusterOf := by
  have haddressed : s.Addressed home clusterOf :=
    Transition.run_induction (fun _ _ _ hs hop hstep => hs.step hhome hop hstep)
      (addressed_new home clusterOf protocol capacity) (Transition.along_of_forall hops) hrun
  exact (filed_of_run hrun).delivers haddressed

/-- In every mailbox, read and unread, the messages of a task are in the order in which it sent
them, except for those whose call failed; and the unread ones are within the capacity. -/
theorem inOrder_of_run {protocol : Protocol} {capacity : ℕ → Mailbox → ℕ} {ops : List NodesOp}
    {s : Nodes} (hrun : Transition.run step (new protocol capacity) ops = some s) (nodeId : ℕ)
    (tx : Mailbox) :
    (((s.mailboxes nodeId tx).taken ++ (s.mailboxes nodeId tx).queue).map Letter.call).Pairwise
      s.InOrder ∧ (s.mailboxes nodeId tx).queue.length ≤ (s.mailboxes nodeId tx).capacity :=
  ⟨(filed_of_run hrun).order nodeId tx, (filed_of_run hrun).bounded nodeId tx⟩

end

/-! ## Two messages of a task -/

section
open Codec

/-- An address for each node. -/
def homeOf (nodeId : ℕ) : String := String.ofList (List.replicate nodeId 'n')

theorem homeOf_injective : Function.Injective homeOf := by
  intro a b hab
  have hlists := String.ofList_injective hab
  simpa using congrArg List.length hlists

/-- A task of node 1 sends two messages to sub-cluster 7 of node 2, whose mailbox holds one. The
request of the first breaks off and arrives behind the second. -/
def overtaking : List NodesOp :=
  [.addPeer 1 2 "nn", .listen "nn" 2, .registerCluster 2 7 0,
    .sendMessage 0 1 2 { clusterId := 7, message := some .campaign }, .call 0 .connect,
    .call 0 .request, .call 0 (.fail "timeout"),
    .sendMessage 0 1 2 { clusterId := 7 }, .call 1 .connect, .call 1 .request, .deliver 1,
    .call 1 .respond, .take 2 0, .deliver 0]

theorem delivers_overtaking : ∃ s,
    Transition.run step (new .http fun _ _ => 1) overtaking = some s ∧
      s.filed 2 0 = [1, 0] ∧ s.Delivers fun _ _ => 7 := by
  have hsome : ((Transition.run step (new .http fun _ _ => 1) overtaking).map fun s =>
      s.filed 2 0) = some [1, 0] := by decide
  obtain ⟨s, hrun, hfiled⟩ := Option.map_eq_some_iff.mp hsome
  exact ⟨s, hrun, hfiled, delivers_of_run homeOf_injective (by decide) hrun⟩

theorem inOrder_overtaking : ∃ s,
    Transition.run step (new .http fun _ _ => 1) overtaking = some s ∧
      s.filed 2 0 = [1, 0] ∧ (s.filed 2 0).Pairwise s.InOrder := by
  have hsome : ((Transition.run step (new .http fun _ _ => 1) overtaking).map fun s =>
      s.filed 2 0) = some [1, 0] := by decide
  obtain ⟨s, hrun, hfiled⟩ := Option.map_eq_some_iff.mp hsome
  exact ⟨s, hrun, hfiled, (inOrder_of_run hrun 2 0).1⟩

end

end Nodes

end Raftoral
