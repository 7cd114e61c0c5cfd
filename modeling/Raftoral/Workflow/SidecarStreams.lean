import Raftoral.Lib.Run
import Raftoral.Workflow.SidecarServer

/-!
# What the streams of a sidecar server are sent

Of one stream (`AppStream.Serves`): the execution requests that were forwarded since it joined, its
heartbeats and its results, each once and in order. The server keeps this for all streams
(`Served`): who waits for what, and what is under way to a stream that is not reached yet.
-/

namespace Raftoral

/-! ## What a stream has got -/

namespace AppStream

/-- The requests the app was sent, in order. -/
def executes (stream : AppStream) : List ExecutionRequest :=
  stream.outgoing.sent.filterMap SidecarMessage.request

/-- The heartbeats that were answered, in order. -/
def answers (stream : AppStream) : List ℕ :=
  stream.outgoing.sent.filterMap SidecarMessage.timestamp

/-- The heartbeat that is being answered. -/
def answering (stream : AppStream) : List ℕ :=
  match stream.task with
  | .responding timestamp => [timestamp]
  | _ => []

/-- The result that is being passed on. -/
def passing (stream : AppStream) : List ExecutionResult :=
  match stream.task with
  | .passingOn result => [result]
  | _ => []

/-- What was sent, if the app is there. -/
theorem send_cases {stream stream' : AppStream} {message : SidecarMessage}
    (h : stream.send message = some stream') :
    stream.outgoing.closed = true ∧ stream' = stream ∨
      ∃ outgoing, stream.outgoing.send message = some outgoing ∧
        stream' = { stream with outgoing } := by
  unfold send at h
  split at h
  next hclosed => exact Or.inl ⟨hclosed, (Option.some.inj h).symm⟩
  next hopen =>
    obtain ⟨outgoing, hsend, rfl⟩ := Option.map_eq_some_iff.mp h
    exact Or.inr ⟨outgoing, hsend, rfl⟩

end AppStream

/-- The circumstances of a stream: what was forwarded, what of it the stream is still to be sent,
what of its results went to the runtimes, and whether they are there. -/
structure Around where
  forwarded : List ExecutionRequest
  pending : List ExecutionRequest
  passedOn : List ExecutionResult
  resultsOpen : Prop

/-- A stream is sent every request from its registration on, once and in order, up to the time the
app goes away, and its heartbeats and results get through in order. -/
structure AppStream.Serves (stream : AppStream) (a : Around) : Prop where
  requests : stream.executes <+: a.forwarded.drop stream.joined
  allRequests : stream.outgoing.closed = false → stream.task ≠ .removed →
    stream.executes ++ a.pending = a.forwarded.drop stream.joined
  answers : stream.answers <+: stream.heartbeats
  allAnswers : stream.outgoing.closed = false → stream.answers ++ stream.answering =
    stream.heartbeats
  results : a.passedOn <+: stream.reported
  allResults : a.resultsOpen → a.passedOn ++ stream.passing = stream.reported

namespace AppStream

variable {stream : AppStream} {a : Around}

/-- The stream ends, or is removed. -/
theorem Serves.ends (h : stream.Serves a) {task : StreamTask}
    (htask : stream.task = .reading ∨ stream.task = .ended)
    (hends : task = .ended ∨ task = .removed) : ({ stream with task } : AppStream).Serves a := by
  have hquiet : stream.answering = [] ∧ stream.passing = [] ∧ stream.task ≠ .removed := by
    rcases htask with htask | htask
    · simp [answering, passing, htask]
    · simp [answering, passing, htask]
  have hafter : ({ stream with task } : AppStream).answering = [] ∧
      ({ stream with task } : AppStream).passing = [] := by
    rcases hends with rfl | rfl
    · exact ⟨rfl, rfl⟩
    · exact ⟨rfl, rfl⟩
  refine ⟨h.requests, fun hopen _ => h.allRequests hopen hquiet.2.2, h.answers,
    fun hopen => ?_, h.results, fun hopen => ?_⟩
  · rw [hafter.1, ← hquiet.1]
    exact h.allAnswers hopen
  · rw [hafter.2, ← hquiet.2.1]
    exact h.allResults hopen

/-- A result is dropped: the runtimes are gone. -/
theorem Serves.drop (h : stream.Serves a) {result : ExecutionResult}
    (htask : stream.task = .passingOn result) (hgone : ¬a.resultsOpen) :
    ({ stream with task := .reading } : AppStream).Serves a := by
  have hanswering : stream.answering = [] := by rw [answering, htask]
  refine ⟨h.requests, fun hopen _ => h.allRequests hopen (by simp [htask]), h.answers,
    fun hopen => ?_, h.results, fun hopen => absurd hopen hgone⟩
  have hall := h.allAnswers hopen
  rwa [hanswering] at hall

/-- What a send does to the channel of a stream. -/
theorem send_outgoing {stream stream' : AppStream} {message : SidecarMessage}
    (h : stream.send message = some stream') :
    stream'.outgoing.capacity = stream.outgoing.capacity ∧
      (stream.outgoing.Bounded → stream'.outgoing.Bounded) ∧
      stream'.outgoing.closed = stream.outgoing.closed ∧ stream'.task = stream.task ∧
      stream'.outgoing.queue.length =
        stream.outgoing.queue.length + if stream.outgoing.closed then 0 else 1 := by
  rcases send_cases h with ⟨hclosed, rfl⟩ | ⟨outgoing, hsend, rfl⟩
  · exact ⟨rfl, id, rfl, rfl, by simp [hclosed]⟩
  · have hbounded := Channel.Bounded.send hsend
    obtain ⟨hopen, -, rfl⟩ := Channel.send_cases hsend
    exact ⟨rfl, fun _ => hbounded, rfl, rfl, by simp [hopen]⟩

theorem handle_outgoing (stream : AppStream) (hasResults : Bool) (incoming : Incoming) :
    (stream.handle hasResults incoming).outgoing = stream.outgoing := by
  unfold AppStream.handle
  split
  · rfl
  · rfl
  · split
    · rfl
    · rfl
  · rfl

/-- A message leaves the stream in the map. -/
theorem handle_keeps (stream : AppStream) (hasResults : Bool) (incoming : Incoming) :
    (stream.handle hasResults incoming).joined = stream.joined ∧
      (stream.task ≠ .removed → (stream.handle hasResults incoming).task ≠ .removed) := by
  unfold AppStream.handle
  split
  · exact ⟨rfl, id⟩
  · exact ⟨rfl, id⟩
  · split
    · exact ⟨rfl, fun _ => by simp⟩
    · exact ⟨rfl, id⟩
  · exact ⟨rfl, fun _ => by simp⟩

theorem Serves.handle (h : stream.Serves a) (htask : stream.task = .reading) (hasResults : Bool)
    (incoming : Incoming) : (stream.handle hasResults incoming).Serves a := by
  have hanswering : stream.answering = [] := by rw [answering, htask]
  have hpassing : stream.passing = [] := by rw [passing, htask]
  have hnot : stream.task ≠ .removed := by simp [htask]
  unfold AppStream.handle
  split
  · exact h
  · exact h
  · split
    · refine ⟨h.requests, fun hopen _ => h.allRequests hopen hnot, h.answers, fun hopen => ?_,
        h.results.trans (List.prefix_append _ _), fun hopen => ?_⟩
      · have hall := h.allAnswers hopen
        rwa [hanswering] at hall
      · have hall := h.allResults hopen
        rw [hpassing, List.append_nil] at hall
        rw [hall]
        rfl
    · exact h
  next timestamp =>
    refine ⟨h.requests, fun hopen _ => h.allRequests hopen hnot,
      h.answers.trans (List.prefix_append _ _), fun hopen => ?_, h.results, fun hopen => ?_⟩
    · have hall := h.allAnswers hopen
      rw [hanswering, List.append_nil] at hall
      exact congrArg (· ++ [timestamp]) hall
    · have hall := h.allResults hopen
      rwa [hpassing] at hall

/-- A heartbeat is answered, if the app is there. -/
theorem Serves.respond (h : stream.Serves a) {timestamp : ℕ} {stream' : AppStream}
    (htask : stream.task = .responding timestamp)
    (hsend : stream.send (.heartbeatResponse timestamp) = some stream') :
    ({ stream' with task := .reading } : AppStream).Serves a := by
  have hpassing : stream.passing = [] := by rw [passing, htask]
  have hnot : stream.task ≠ .removed := by simp [htask]
  have hanswering : stream.answering = [timestamp] := by rw [answering, htask]
  have hresults : a.resultsOpen → a.passedOn ++ [] = stream.reported := fun hopen => by
    rw [← hpassing]
    exact h.allResults hopen
  rcases send_cases hsend with ⟨hclosed, rfl⟩ | ⟨outgoing, hsent, rfl⟩
  · have hgone : ¬stream'.outgoing.closed = false := by simp [hclosed]
    exact ⟨h.requests, fun hopen => absurd hopen hgone, h.answers,
      fun hopen => absurd hopen hgone, h.results, hresults⟩
  · have hopen : stream.outgoing.closed = false := (Channel.send_cases hsent).1
    have hexecutes : outgoing.sent.filterMap SidecarMessage.request = stream.executes := by
      rw [Channel.sent_send hsent, List.filterMap_append]
      exact List.append_nil _
    have hanswers : outgoing.sent.filterMap SidecarMessage.timestamp = stream.heartbeats := by
      rw [Channel.sent_send hsent, List.filterMap_append, ← h.allAnswers hopen, hanswering]
      rfl
    refine ⟨?_, fun _ _ => ?_, ?_, fun _ => ?_, h.results, hresults⟩
    · change outgoing.sent.filterMap SidecarMessage.request <+: _
      rw [hexecutes]
      exact h.requests
    · change outgoing.sent.filterMap SidecarMessage.request ++ a.pending = _
      rw [hexecutes]
      exact h.allRequests hopen hnot
    · change outgoing.sent.filterMap SidecarMessage.timestamp <+: _
      rw [hanswers]
    · exact (List.append_nil _).trans hanswers

/-- The app takes a message. -/
theorem Serves.takes (h : stream.Serves a) {outgoing : Channel SidecarMessage}
    (hrecv : stream.outgoing.recv = some outgoing) :
    ({ stream with outgoing } : AppStream).Serves a := by
  have hsent : outgoing.sent = stream.outgoing.sent := Channel.sent_recv hrecv
  have hclosed : outgoing.closed = stream.outgoing.closed := by
    obtain ⟨x, rest, -, rfl⟩ := Channel.recv_cases hrecv
    rfl
  have hexecutes : ({ stream with outgoing } : AppStream).executes = stream.executes := by
    rw [AppStream.executes, hsent, AppStream.executes]
  have hanswers : ({ stream with outgoing } : AppStream).answers = stream.answers := by
    rw [AppStream.answers, hsent, AppStream.answers]
  exact ⟨hexecutes ▸ h.requests, fun hopen hne => hexecutes ▸ h.allRequests (hclosed ▸ hopen) hne,
    hanswers ▸ h.answers, fun hopen => hanswers ▸ h.allAnswers (hclosed ▸ hopen), h.results,
    h.allResults⟩

/-- The app goes away. -/
theorem Serves.leaves (h : stream.Serves a) :
    ({ stream with outgoing := stream.outgoing.close } : AppStream).Serves a :=
  ⟨h.requests, fun hopen => absurd hopen (by simp [Channel.close]), h.answers,
    fun hopen => absurd hopen (by simp [Channel.close]), h.results, h.allResults⟩

end AppStream

namespace SidecarServer

/-- The request that the forwarder is still to send to a stream. -/
def pending (s : SidecarServer) (k : ℕ) : List ExecutionRequest :=
  match s.forwarder with
  | .sending r rest => if k ∈ rest then [r] else []
  | _ => []

/-- The results of a stream that went to the runtimes. -/
def passedOn (s : SidecarServer) (k : ℕ) : List ExecutionResult :=
  ((s.results.map Channel.sent).getD []).filterMap fun p => if p.1 = k then some p.2 else none

def around (s : SidecarServer) (k : ℕ) : Around :=
  ⟨s.forwarded, s.pending k, s.passedOn k, s.ResultsOpen⟩

structure Served (s : SidecarServer) : Prop where
  serves : ∀ (k : ℕ) (stream : AppStream), s.streams[k]? = some stream → stream.Serves (s.around k)
  joined : ∀ (k : ℕ) (stream : AppStream), s.streams[k]? = some stream →
    stream.joined ≤ s.forwarded.length
  /-- The forwarder sends to each stream once, and only to streams in the map. -/
  sending : ∀ r rest, s.forwarder = .sending r rest → rest ≠ [] ∧ rest.Nodup ∧
    ∀ k ∈ rest, k ∈ s.registered
  /-- Results are marked with streams that are there. -/
  marks : ∀ results ∈ s.results, ∀ p ∈ results.sent, p.1 < s.streams.length

theorem served_new (hasResults : Bool) : Served (new hasResults) := by
  refine ⟨by simp [new], by simp [new], by simp [new], fun results h p hp => ?_⟩
  cases hasResults with
  | true =>
    obtain rfl := Option.some.inj h
    exact absurd hp (by simp)
  | false => exact absurd h (by simp [new])

theorem mem_registered {s : SidecarServer} {k : ℕ} :
    k ∈ s.registered ↔ ∃ stream, s.streams[k]? = some stream ∧ stream.task ≠ .removed := by
  simp only [registered, List.mem_filter, List.mem_range, Option.any_eq_true, bne_iff_ne]
  constructor
  · exact fun h => h.2
  · rintro ⟨stream, hk, htask⟩
    exact ⟨(List.getElem?_eq_some_iff.mp hk).1, stream, hk, htask⟩

theorem nodup_registered (s : SidecarServer) : s.registered.Nodup :=
  List.nodup_range.filter _

/-- One stream changes, and what is forwarded stays. -/
theorem Served.set {s s' : SidecarServer} (hs : s.Served) {k : ℕ} {stream stream' : AppStream}
    (hk : s.streams[k]? = some stream) (hstreams : s'.streams = s.streams.set k stream')
    (hforwarded : s'.forwarded = s.forwarded) (hjoined : stream'.joined = stream.joined)
    (hself : stream'.Serves (s'.around k))
    (hother : ∀ j, j ≠ k → s'.around j = s.around j)
    (hsending : ∀ r rest, s'.forwarder = .sending r rest → rest ≠ [] ∧ rest.Nodup ∧
      ∀ j ∈ rest, j ∈ s'.registered)
    (hmarks : ∀ results ∈ s'.results, ∀ p ∈ results.sent, p.1 < s.streams.length) : s'.Served := by
  have hlt : k < s.streams.length := (List.getElem?_eq_some_iff.mp hk).1
  have hcases : ∀ {j : ℕ} {t : AppStream}, s'.streams[j]? = some t →
      j = k ∧ t = stream' ∨ j ≠ k ∧ s.streams[j]? = some t := by
    intro j t hj
    rw [hstreams] at hj
    by_cases hjk : j = k
    · subst hjk
      rw [List.getElem?_set_self hlt, Option.some.injEq] at hj
      exact Or.inl ⟨rfl, hj.symm⟩
    · rw [List.getElem?_set_ne (Ne.symm hjk)] at hj
      exact Or.inr ⟨hjk, hj⟩
  refine ⟨fun j t hj => ?_, fun j t hj => ?_, hsending, fun results hresults p hp => ?_⟩
  · rcases hcases hj with ⟨rfl, rfl⟩ | ⟨hjk, hj⟩
    · exact hself
    · rw [hother j hjk]
      exact hs.serves j t hj
  · rw [hforwarded]
    rcases hcases hj with ⟨rfl, rfl⟩ | ⟨hjk, hj⟩
    · rw [hjoined]
      exact hs.joined j stream hk
    · exact hs.joined j t hj
  · rw [hstreams, List.length_set]
    exact hmarks results hresults p hp

/-- The streams that are in the map stay there when one of them changes otherwise. -/
theorem mem_registered_set {s s' : SidecarServer} {k j : ℕ} {stream stream' : AppStream}
    (hk : s.streams[k]? = some stream) (hstreams : s'.streams = s.streams.set k stream')
    (htask : stream.task ≠ .removed → stream'.task ≠ .removed) (hj : j ∈ s.registered) :
    j ∈ s'.registered := by
  obtain ⟨t, ht, hne⟩ := mem_registered.mp hj
  rw [mem_registered, hstreams]
  by_cases hjk : j = k
  · subst hjk
    obtain rfl : stream = t := Option.some.inj (hk.symm.trans ht)
    exact ⟨stream', List.getElem?_set_self (List.getElem?_eq_some_iff.mp hk).1, htask hne⟩
  · exact ⟨t, (List.getElem?_set_ne (Ne.symm hjk)).trans ht, hne⟩

/-- A stream changes and nothing else. -/
theorem Served.setStream {s : SidecarServer} (hs : s.Served) {k : ℕ} {stream stream' : AppStream}
    (hk : s.streams[k]? = some stream) (hjoined : stream'.joined = stream.joined)
    (htask : stream.task ≠ .removed → stream'.task ≠ .removed ∨ s.unlocked)
    (hself : stream.Serves (s.around k) → stream'.Serves (s.around k)) :
    (s.setStream k stream').Served := by
  refine hs.set hk rfl rfl hjoined (hself (hs.serves k stream hk)) (fun _ _ => rfl)
    (fun r rest hsending => ?_) hs.marks
  obtain ⟨hne, hnodup, hmem⟩ := hs.sending r rest hsending
  have hlocked : s.unlocked = false := by
    have hforwarder : s.forwarder = .sending r rest := hsending
    simp [unlocked, hforwarder]
  refine ⟨hne, hnodup, fun j hj => mem_registered_set hk rfl (fun h => ?_) (hmem j hj)⟩
  exact (htask h).resolve_right (by simp [hlocked])

@[simp] theorem next_ne_locking {r r' : ExecutionRequest} {rest : List ℕ} :
    Forwarder.next r rest ≠ .locking r' := by
  cases rest <;> simp [Forwarder.next]

theorem next_eq_sending {r r' : ExecutionRequest} {rest rest' : List ℕ}
    (h : Forwarder.next r rest = .sending r' rest') : r' = r ∧ rest' = rest ∧ rest ≠ [] := by
  cases rest with
  | nil => simp [Forwarder.next] at h
  | cons k rest =>
    injection h with hr hrest
    exact ⟨hr.symm, hrest.symm, List.cons_ne_nil _ _⟩

theorem pending_next (s : SidecarServer) (r : ExecutionRequest) (rest : List ℕ) (k : ℕ) :
    ({ s with forwarder := Forwarder.next r rest } : SidecarServer).pending k =
      if k ∈ rest then [r] else [] := by
  cases rest with
  | nil => rfl
  | cons j rest => rfl

/-- The forwarder gets the lock: the streams in the map are to be sent the request. -/
theorem Served.lock {s : SidecarServer} (hs : s.Served) {r : ExecutionRequest} {order : List ℕ}
    (hforwarder : s.forwarder = .locking r) (horder : order.Perm s.registered) :
    Served { s with forwarder := Forwarder.next r order, forwarded := s.forwarded ++ [r] } := by
  have hidle : ∀ k, s.pending k = [] := fun k => by rw [pending, hforwarder]
  refine ⟨fun k stream hk => ?_, fun k stream hk => ?_, fun r' rest hsending => ?_, hs.marks⟩
  · have h := hs.serves k stream hk
    have hdrop : (s.forwarded ++ [r]).drop stream.joined = s.forwarded.drop stream.joined ++ [r] :=
      List.drop_append_of_le_length (hs.joined k stream hk)
    refine ⟨?_, fun hopen hne => ?_, h.answers, h.allAnswers, h.results, h.allResults⟩
    · change stream.executes <+: (s.forwarded ++ [r]).drop stream.joined
      rw [hdrop]
      exact h.requests.trans (List.prefix_append _ _)
    · have hmem : k ∈ order := horder.mem_iff.mpr (mem_registered.mpr ⟨stream, hk, hne⟩)
      have hall : stream.executes ++ s.pending k = s.forwarded.drop stream.joined :=
        h.allRequests hopen hne
      change stream.executes ++ pending { s with forwarder := Forwarder.next r order } k =
        (s.forwarded ++ [r]).drop stream.joined
      rw [hidle, List.append_nil] at hall
      rw [hdrop, pending_next, if_pos hmem, hall]
  · change stream.joined ≤ (s.forwarded ++ [r]).length
    rw [List.length_append]
    exact (hs.joined k stream hk).trans (Nat.le_add_right _ _)
  · obtain ⟨-, rfl, hne⟩ := next_eq_sending hsending
    exact ⟨hne, (horder.nodup_iff).mpr (nodup_registered s), fun k hk => horder.mem_iff.mp hk⟩

/-- The forwarder sends to the next stream, or finds its app gone. -/
theorem Served.forward {s : SidecarServer} (hs : s.Served) {r : ExecutionRequest} {k : ℕ}
    {rest : List ℕ} {stream stream' : AppStream} (hforwarder : s.forwarder = .sending r (k :: rest))
    (hk : s.streams[k]? = some stream) (hsend : stream.send r.message = some stream') :
    Served { s.setStream k stream' with forwarder := Forwarder.next r rest } := by
  obtain ⟨-, hnodup, hmem⟩ := hs.sending r _ hforwarder
  obtain ⟨hfresh, hnodup'⟩ := List.nodup_cons.mp hnodup
  have htask : stream.task ≠ .removed := by
    obtain ⟨t, ht, hne⟩ := mem_registered.mp (hmem k List.mem_cons_self)
    rwa [Option.some.inj (hk.symm.trans ht)]
  have hpending : s.pending k = [r] := by simp [pending, hforwarder]
  have hkept : stream'.task = stream.task ∧ stream'.joined = stream.joined := by
    rcases AppStream.send_cases hsend with ⟨-, rfl⟩ | ⟨outgoing, -, rfl⟩
    · exact ⟨rfl, rfl⟩
    · exact ⟨rfl, rfl⟩
  -- the request is pending for the streams that are left
  have hnext : ∀ j, pending { s.setStream k stream' with forwarder := Forwarder.next r rest } j =
      if j ∈ rest then [r] else [] := pending_next _ r rest
  refine hs.set hk rfl rfl hkept.2 ?_ (fun j hj => ?_) (fun r' rest' hsending => ?_) hs.marks
  · have h := hs.serves k stream hk
    have hnone : pending { s.setStream k stream' with forwarder := Forwarder.next r rest } k = [] :=
      by rw [hnext, if_neg hfresh]
    -- a closed stream is sent nothing more and promises nothing
    rcases AppStream.send_cases hsend with ⟨hclosed, rfl⟩ | ⟨outgoing, hsent, rfl⟩
    · exact ⟨h.requests, fun hopen => absurd hopen (by simp [hclosed]), h.answers, h.allAnswers,
        h.results, h.allResults⟩
    · have hopen : stream.outgoing.closed = false := (Channel.send_cases hsent).1
      have hall : stream.executes ++ [r] = s.forwarded.drop stream.joined := by
        rw [← hpending]
        exact h.allRequests hopen htask
      have hexecutes : outgoing.sent.filterMap SidecarMessage.request = stream.executes ++ [r] := by
        rw [Channel.sent_send hsent, List.filterMap_append]
        rfl
      have hanswers : outgoing.sent.filterMap SidecarMessage.timestamp = stream.answers := by
        rw [Channel.sent_send hsent, List.filterMap_append]
        exact List.append_nil _
      refine ⟨?_, fun _ _ => ?_, ?_, fun _ => ?_, h.results, h.allResults⟩
      · change outgoing.sent.filterMap SidecarMessage.request <+: s.forwarded.drop stream.joined
        rw [hexecutes, hall]
      · change outgoing.sent.filterMap SidecarMessage.request ++ pending _ k =
          s.forwarded.drop stream.joined
        rw [hexecutes, hnone, List.append_nil, hall]
      · change outgoing.sent.filterMap SidecarMessage.timestamp <+: stream.heartbeats
        rw [hanswers]
        exact h.answers
      · change outgoing.sent.filterMap SidecarMessage.timestamp ++ stream.answering =
          stream.heartbeats
        rw [hanswers]
        exact h.allAnswers hopen
  · have hsame : pending { s.setStream k stream' with forwarder := Forwarder.next r rest } j =
        s.pending j := by
      refine (hnext j).trans ?_
      simp [pending, hforwarder, hj]
    unfold around
    rw [hsame]
    rfl
  · obtain ⟨-, rfl, hne⟩ := next_eq_sending hsending
    exact ⟨hne, hnodup', fun j hj => mem_registered_set hk rfl (fun _ => hkept.1 ▸ htask)
      (hmem j (List.mem_cons_of_mem k hj))⟩

/-- A stream comes. -/
theorem Served.connect {s : SidecarServer} (hs : s.Served) (hunlocked : s.unlocked) :
    Served { s with streams := s.streams ++
      [{ outgoing := { capacity := capacity }, joined := s.forwarded.length }] } := by
  -- no request is on its way, since the lock is free
  have hidle : ∀ k, s.pending k = [] := fun k => by
    unfold pending
    split
    next r rest hforwarder => simp [unlocked, hforwarder] at hunlocked
    next => rfl
  have hcases : ∀ {k : ℕ} {t : AppStream}, (s.streams ++
      [{ outgoing := { capacity := capacity }, joined := s.forwarded.length }])[k]? = some t →
      s.streams[k]? = some t ∨ k = s.streams.length ∧
        t = { outgoing := { capacity := capacity }, joined := s.forwarded.length } := by
    intro k t hk
    rw [List.getElem?_append] at hk
    split at hk
    · exact Or.inl hk
    next hle =>
      rw [List.getElem?_singleton] at hk
      split at hk
      next hzero => exact Or.inr ⟨by omega, (Option.some.inj hk).symm⟩
      next => exact absurd hk (by simp)
  -- no result bears the number of the new stream
  have hnothing : s.passedOn s.streams.length = [] := by
    unfold passedOn
    rw [List.filterMap_eq_nil_iff]
    intro p hp
    cases hresults : s.results with
    | none => simp [hresults] at hp
    | some results =>
      rw [hresults] at hp
      have hlt := hs.marks results hresults p hp
      exact if_neg (Nat.ne_of_lt hlt)
  refine ⟨fun k t hk => ?_, fun k t hk => ?_, fun r rest hsending => ?_,
    fun results hresults p hp => ?_⟩
  · rcases hcases hk with hold | ⟨rfl, rfl⟩
    · exact hs.serves k t hold
    · have hdrop : s.forwarded.drop s.forwarded.length = [] := List.drop_length
      refine ⟨List.nil_prefix, fun _ _ => ?_, List.nil_prefix, fun _ => rfl, ?_, fun _ => ?_⟩
      · change [] ++ s.pending s.streams.length = s.forwarded.drop s.forwarded.length
        rw [hidle, hdrop, List.append_nil]
      · change s.passedOn s.streams.length <+: []
        rw [hnothing]
      · change s.passedOn s.streams.length ++ [] = []
        rw [hnothing, List.append_nil]
  · rcases hcases hk with hold | ⟨rfl, rfl⟩
    · exact hs.joined k t hold
    · exact le_rfl
  · have hforwarder : s.forwarder = .sending r rest := hsending
    simp [unlocked, hforwarder] at hunlocked
  · change p.1 < (s.streams ++ _).length
    rw [List.length_append]
    exact (hs.marks results hresults p hp).trans_le (Nat.le_add_right _ _)

/-- A stream passes a result on, and the runtimes are there. -/
theorem Served.passOn {s : SidecarServer} (hs : s.Served) {k : ℕ} {stream : AppStream}
    {results results' : Channel (ℕ × ExecutionResult)} {result : ExecutionResult}
    (hk : s.streams[k]? = some stream) (hresults : s.results = some results)
    (htask : stream.task = .passingOn result) (hsend : results.send (k, result) = some results') :
    Served { s.setStream k { stream with task := .reading } with results := some results' } := by
  have hlt : k < s.streams.length := (List.getElem?_eq_some_iff.mp hk).1
  have hopen : s.ResultsOpen := fun t ht => by
    rw [Option.mem_def, hresults, Option.some.injEq] at ht
    exact ht ▸ (Channel.send_cases hsend).1
  -- the result comes to the end of what this stream has passed on, and of no other
  have hsent : ∀ j, passedOn { s.setStream k { stream with task := .reading } with
      results := some results' } j = s.passedOn j ++ if k = j then [result] else [] := by
    intro j
    simp only [passedOn, hresults, Option.map_some, Option.getD_some, Channel.sent_send hsend,
      List.filterMap_append]
    by_cases hkj : k = j
    · simp [hkj]
    · simp [hkj]
  have hopen' : ResultsOpen { s.setStream k { stream with task := .reading } with
      results := some results' } := fun t ht => by
    obtain rfl := Option.some.inj ht
    obtain ⟨hstays, -, rfl⟩ := Channel.send_cases hsend
    exact hstays
  refine hs.set hk rfl rfl rfl ?_ (fun j hj => ?_) (fun r rest hsending => ?_)
    (fun t ht p hp => ?_)
  · have h := hs.serves k stream hk
    have hpassing : stream.passing = [result] := by rw [AppStream.passing, htask]
    have hanswering : stream.answering = [] := by rw [AppStream.answering, htask]
    have hnot : stream.task ≠ .removed := by simp [htask]
    -- with it, all that the app has reported is passed on
    have hall : s.passedOn k ++ [result] = stream.reported := by
      rw [← hpassing]
      exact h.allResults hopen
    have hnow : passedOn { s.setStream k { stream with task := .reading } with
        results := some results' } k = stream.reported := by
      rw [hsent, if_pos rfl, hall]
    refine ⟨h.requests, fun hopen _ => h.allRequests hopen hnot, h.answers, fun hopen => ?_, ?_,
      fun _ => ?_⟩
    · have hanswers := h.allAnswers hopen
      rwa [hanswering] at hanswers
    · change passedOn _ k <+: stream.reported
      rw [hnow]
    · change passedOn _ k ++ [] = stream.reported
      rw [List.append_nil, hnow]
  · have hsame : passedOn { s.setStream k { stream with task := .reading } with
        results := some results' } j = s.passedOn j := by
      rw [hsent, if_neg (Ne.symm hj), List.append_nil]
    have hboth : ResultsOpen { s.setStream k { stream with task := .reading } with
        results := some results' } = s.ResultsOpen :=
      propext ⟨fun _ => hopen, fun _ => hopen'⟩
    unfold around
    rw [hsame, hboth]
    rfl
  · obtain ⟨hne, hnodup, hmem⟩ := hs.sending r rest hsending
    exact ⟨hne, hnodup, fun j hj => mem_registered_set hk rfl (fun _ => by simp) (hmem j hj)⟩
  · obtain rfl := Option.some.inj ht
    rw [Channel.sent_send hsend] at hp
    rcases List.mem_append.mp hp with hp | hp
    · exact hs.marks results hresults p hp
    · rw [List.mem_singleton.mp hp]
      exact hlt

/-- A runtime takes a result, or the runtimes go away. -/
theorem Served.setResults {s : SidecarServer} (hs : s.Served)
    {results results' : Channel (ℕ × ExecutionResult)} (hresults : s.results = some results)
    (hsent : results'.sent = results.sent)
    (hclosed : results'.closed = false → results.closed = false) :
    Served { s with results := some results' } := by
  have hpassed : ∀ j, passedOn { s with results := some results' } j = s.passedOn j := fun j => by
    simp [passedOn, hresults, hsent]
  have hopen : ResultsOpen { s with results := some results' } → s.ResultsOpen := fun h t ht => by
    rw [Option.mem_def, hresults, Option.some.injEq] at ht
    exact ht ▸ hclosed (h results' rfl)
  refine ⟨fun k t hk => ?_, hs.joined, hs.sending, fun t ht p hp => ?_⟩
  · have h := hs.serves k t hk
    refine ⟨h.requests, h.allRequests, h.answers, h.allAnswers, ?_, fun h' => ?_⟩
    · change passedOn _ k <+: _
      rw [hpassed]
      exact h.results
    · change passedOn _ k ++ _ = _
      rw [hpassed]
      exact h.allResults (hopen h')
  · obtain rfl := Option.some.inj ht
    exact hs.marks results hresults p (hsent ▸ hp)

theorem Served.step {s s' : SidecarServer} (hs : s.Served) {op : ServerOp}
    (h : s.step op = some s') : s'.Served := by
  cases stepped h with
  | request => exact ⟨hs.serves, hs.joined, hs.sending, hs.marks⟩
  | takeRequest hforwarder =>
    have hidle : ∀ k, s.pending k = [] := fun k => by rw [pending, hforwarder]
    refine ⟨fun k t hk => ?_, hs.joined, by simp, hs.marks⟩
    have ht := hs.serves k t hk
    rw [around, hidle] at ht
    exact ht
  | lock hforwarder horder => exact hs.lock hforwarder horder
  | forward hforwarder hk hsend => exact hs.forward hforwarder hk hsend
  | connect hunlocked => exact hs.connect hunlocked
  | receive hk htask =>
    obtain ⟨hjoined, hstays⟩ := AppStream.handle_keeps _ s.results.isSome _
    exact hs.setStream hk hjoined (fun hne => Or.inl (hstays hne)) fun ht => ht.handle htask _ _
  | respond hk htask hsend =>
    refine hs.setStream hk ?_ (fun _ => Or.inl (by simp)) fun ht => ht.respond htask hsend
    rcases AppStream.send_cases hsend with ⟨-, rfl⟩ | ⟨outgoing, -, rfl⟩
    · rfl
    · rfl
  | drop hk htask hgone =>
    exact hs.setStream hk rfl (fun _ => Or.inl (by simp)) fun ht => ht.drop htask hgone
  | passOn hk hresults htask hsend => exact hs.passOn hk hresults htask hsend
  | streamEnds hk htask =>
    exact hs.setStream hk rfl (fun _ => Or.inl (by simp)) fun ht =>
      ht.ends (Or.inl htask) (Or.inl rfl)
  | remove hk htask hunlocked =>
    exact hs.setStream hk rfl (fun _ => Or.inr hunlocked) fun ht =>
      ht.ends (Or.inr htask) (Or.inr rfl)
  | appTakes hk hrecv => exact hs.setStream hk rfl Or.inl fun ht => ht.takes hrecv
  | appLeaves hk => exact hs.setStream hk rfl Or.inl fun ht => ht.leaves
  | results _ hresults hsent hclosed => exact hs.setResults hresults hsent hclosed

theorem served_of_run {s : SidecarServer} {hasResults : Bool} {ops : List ServerOp}
    (hrun : Transition.run step (new hasResults) ops = some s) : s.Served :=
  Transition.run_induction (fun _ _ _ hs _ h => hs.step h) (served_new hasResults)
    Transition.along_true hrun

/-- Every stream that was ever registered is served. -/
theorem serves_of_run {s : SidecarServer} {hasResults : Bool} {ops : List ServerOp}
    (hrun : Transition.run step (new hasResults) ops = some s) {k : ℕ} {stream : AppStream}
    (hk : s.streams[k]? = some stream) : stream.Serves (s.around k) :=
  (served_of_run hrun).serves k stream hk

/-! An app comes, says that it is alive and is asked to execute a workflow, and a second app comes
when the request was forwarded. -/

section

private def greeting : ExecutionRequest := ⟨"w", "greet", 1, [], true⟩

private def twoApps : List ServerOp :=
  [.connect, .request greeting, .receive 0 (.heartbeat 7), .takeRequest, .lock [0], .respond 0,
    .forward, .connect, .appTakes 0]

/-- The first app has the answer to its heartbeat and the request, in this order. -/
theorem serves_twoApps : ∃ s stream,
    Transition.run step (new true) twoApps = some s ∧ s.streams[0]? = some stream ∧
      stream.outgoing.sent = [.heartbeatResponse 7, greeting.message] ∧
      stream.Serves (s.around 0) := by
  have hsome : ((Transition.run step (new true) twoApps).map fun s =>
      (s.streams[0]?).map fun stream => stream.outgoing.sent) =
        some (some [.heartbeatResponse 7, greeting.message]) := by decide
  obtain ⟨s, hrun, hs⟩ := Option.map_eq_some_iff.mp hsome
  obtain ⟨stream, hk, hsent⟩ := Option.map_eq_some_iff.mp hs
  exact ⟨s, stream, hrun, hk, hsent, serves_of_run hrun hk⟩

end

end SidecarServer

end Raftoral
