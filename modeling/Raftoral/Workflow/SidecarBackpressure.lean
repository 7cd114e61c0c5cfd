import Raftoral.Workflow.SidecarStreams

/-!
# Apps that take nothing

The task that forwards requests to the apps holds the lock on the map of streams while it waits
for a place in the channel of one of them. One app that is connected and takes no message stops
it: then no app is sent a request, and none can come or go.
-/

namespace Raftoral

namespace SidecarServer

/-! ## An app that takes nothing -/

/-- The forwarder waits for a place in the channel of a stream. -/
def StuckAt (s : SidecarServer) (k : ℕ) : Prop :=
  ∃ r rest stream, s.forwarder = .sending r (k :: rest) ∧ s.streams[k]? = some stream ∧
    stream.outgoing.closed = false ∧ stream.outgoing.capacity ≤ stream.outgoing.queue.length

/-- No request moves: the runtimes keep theirs, no app is sent one, no app comes or goes. -/
structure Unmoved (s t : SidecarServer) : Prop where
  forwarder : t.forwarder = s.forwarder
  requests : t.requests.taken = s.requests.taken
  forwarded : t.forwarded = s.forwarded
  streams : t.streams.length = s.streams.length
  registered : t.registered = s.registered
  executes : ∀ j : ℕ,
    (t.streams[j]?).map AppStream.executes = (s.streams[j]?).map AppStream.executes

theorem Unmoved.refl (s : SidecarServer) : s.Unmoved s :=
  ⟨rfl, rfl, rfl, rfl, rfl, fun _ => rfl⟩

theorem Unmoved.trans {s t u : SidecarServer} (h : s.Unmoved t) (h' : t.Unmoved u) : s.Unmoved u :=
  ⟨h'.forwarder.trans h.forwarder, h'.requests.trans h.requests, h'.forwarded.trans h.forwarded,
    h'.streams.trans h.streams, h'.registered.trans h.registered,
    fun j => (h'.executes j).trans (h.executes j)⟩

theorem map_set_of_eq {α β : Type} {f : α → β} {l : List α} {k : ℕ} {x y : α}
    (hk : l[k]? = some x) (hf : f y = f x) (j : ℕ) : ((l.set k y)[j]?).map f = (l[j]?).map f := by
  by_cases hjk : j = k
  · subst hjk
    rw [List.getElem?_set_self (List.getElem?_eq_some_iff.mp hk).1, hk, Option.map_some,
      Option.map_some, hf]
  · rw [List.getElem?_set_ne (Ne.symm hjk)]

/-- One stream changes, with what concerns the requests as it was. -/
theorem Unmoved.set {s s' : SidecarServer} {j : ℕ} {stream stream' : AppStream}
    (hj : s.streams[j]? = some stream) (hstreams : s'.streams = s.streams.set j stream')
    (hforwarder : s'.forwarder = s.forwarder) (hrequests : s'.requests = s.requests)
    (hforwarded : s'.forwarded = s.forwarded)
    (htask : (stream'.task != .removed) = (stream.task != .removed))
    (hexecutes : stream'.executes = stream.executes) : s.Unmoved s' := by
  refine ⟨hforwarder, by rw [hrequests], hforwarded, ?_, ?_, fun i => ?_⟩
  · rw [hstreams, List.length_set]
  · unfold SidecarServer.registered
    rw [hstreams, List.length_set]
    refine List.filter_congr fun i _ => ?_
    have hmap := map_set_of_eq (f := fun t : AppStream => t.task != .removed) hj htask i
    simpa only [Option.any_map, Function.comp_def, id] using congrArg (Option.any id) hmap
  · rw [hstreams]
    exact map_set_of_eq hj hexecutes i

/-- The channel of the stream the forwarder waits for stays as it is. -/
theorem StuckAt.set {s s' : SidecarServer} {k j : ℕ} {stream stream' : AppStream} (h : s.StuckAt k)
    (hj : s.streams[j]? = some stream) (hstreams : s'.streams = s.streams.set j stream')
    (hforwarder : s'.forwarder = s.forwarder)
    (houtgoing : j = k → stream'.outgoing = stream.outgoing) : s'.StuckAt k := by
  obtain ⟨r, rest, t, hsending, hk, hopen, hfull⟩ := h
  by_cases hjk : j = k
  · obtain rfl : stream = t := Option.some.inj ((hjk ▸ hj).symm.trans hk)
    refine ⟨r, rest, stream', hforwarder.trans hsending, ?_, ?_, ?_⟩
    · rw [hstreams, hjk, List.getElem?_set_self (List.getElem?_eq_some_iff.mp hk).1]
    · rw [houtgoing hjk]
      exact hopen
    · rw [houtgoing hjk]
      exact hfull
  · refine ⟨r, rest, t, hforwarder.trans hsending, ?_, hopen, hfull⟩
    rw [hstreams, List.getElem?_set_ne hjk]
    exact hk

/-- A full channel takes no message. -/
theorem StuckAt.send_eq_none {s : SidecarServer} {k : ℕ} (h : s.StuckAt k) {stream : AppStream}
    (hk : s.streams[k]? = some stream) (message : SidecarMessage) :
    stream.send message = none := by
  obtain ⟨r, rest, t, -, ht, hopen, hfull⟩ := h
  obtain rfl : stream = t := Option.some.inj (hk.symm.trans ht)
  simp [AppStream.send, Channel.send, hopen, hfull]

theorem StuckAt.step {s s' : SidecarServer} {k : ℕ} (h : s.StuckAt k) {op : ServerOp}
    (htakes : op ≠ .appTakes k) (hleaves : op ≠ .appLeaves k) (hstep : s.step op = some s') :
    s.Unmoved s' ∧ s'.StuckAt k := by
  obtain ⟨r, rest, t, hsending, -, -, -⟩ := id h
  -- the forwarder holds the lock and waits, so what needs either cannot step
  have hlocked : s.unlocked ≠ true := by simp [unlocked, hsending]
  cases stepped hstep with
  | request hsend =>
    refine ⟨⟨rfl, ?_, rfl, rfl, rfl, fun _ => rfl⟩, h⟩
    obtain ⟨-, -, rfl⟩ := Channel.send_cases hsend
    rfl
  | takeRequest hforwarder => exact absurd (hsending.symm.trans hforwarder) (by simp)
  | lock hforwarder => exact absurd (hsending.symm.trans hforwarder) (by simp)
  | forward hforwarder hk hsend =>
    obtain ⟨rfl, rfl, rfl⟩ : r = _ ∧ k = _ ∧ rest = _ := by
      simpa using hsending.symm.trans hforwarder
    exact absurd (hsend.symm.trans (h.send_eq_none hk _)) (by simp)
  | connect hunlocked => exact absurd hunlocked hlocked
  | @receive j incoming stream hj htask =>
    have hkept := AppStream.handle_outgoing stream s.results.isSome incoming
    have hstays := (AppStream.handle_keeps stream s.results.isSome incoming).2 (by simp [htask])
    refine ⟨Unmoved.set hj rfl rfl rfl rfl ?_ ?_, h.set hj rfl rfl fun _ => hkept⟩
    · rw [bne_iff_ne.mpr hstays, htask]
      rfl
    · rw [AppStream.executes, hkept, AppStream.executes]
  | @respond j timestamp stream stream' hj htask hsend =>
    -- the channel of the stream is full, so it is another that responds
    have hother : j ≠ k := fun hjk =>
      absurd (hsend.symm.trans (h.send_eq_none (hjk ▸ hj) _)) (by simp)
    refine ⟨Unmoved.set hj rfl rfl rfl rfl ?_ ?_, h.set hj rfl rfl fun hjk => absurd hjk hother⟩
    · rw [htask]
      rfl
    · rcases AppStream.send_cases hsend with ⟨-, rfl⟩ | ⟨outgoing, hsent, rfl⟩
      · rfl
      · rw [AppStream.executes, AppStream.executes, Channel.sent_send hsent,
          List.filterMap_append]
        exact List.append_nil _
  | drop hj htask =>
    exact ⟨Unmoved.set hj rfl rfl rfl rfl (by rw [htask]; rfl) rfl, h.set hj rfl rfl fun _ => rfl⟩
  | passOn hj _ htask =>
    exact ⟨Unmoved.set hj rfl rfl rfl rfl (by rw [htask]; rfl) rfl, h.set hj rfl rfl fun _ => rfl⟩
  | streamEnds hj htask =>
    exact ⟨Unmoved.set hj rfl rfl rfl rfl (by rw [htask]; rfl) rfl, h.set hj rfl rfl fun _ => rfl⟩
  | remove _ _ hunlocked => exact absurd hunlocked hlocked
  | @appTakes j stream outgoing hj hrecv =>
    have hother : j ≠ k := fun hjk => htakes (by rw [hjk])
    refine ⟨Unmoved.set hj rfl rfl rfl rfl rfl ?_, h.set hj rfl rfl fun hjk => absurd hjk hother⟩
    rw [AppStream.executes, Channel.sent_recv hrecv, AppStream.executes]
  | @appLeaves j stream hj =>
    have hother : j ≠ k := fun hjk => hleaves (by rw [hjk])
    exact ⟨Unmoved.set hj rfl rfl rfl rfl rfl rfl, h.set hj rfl rfl fun hjk => absurd hjk hother⟩
  | results => exact ⟨⟨rfl, rfl, rfl, rfl, rfl, fun _ => rfl⟩, h⟩

/-- One app that takes no message stops the requests to all. -/
theorem unmoved_of_run {s t : SidecarServer} {k : ℕ} {ops : List ServerOp} (hstuck : s.StuckAt k)
    (htakes : .appTakes k ∉ ops) (hleaves : .appLeaves k ∉ ops)
    (hrun : Transition.run step s ops = some t) : s.Unmoved t ∧ t.StuckAt k := by
  have hops : Transition.Along step (fun _ op => op ≠ .appTakes k ∧ op ≠ .appLeaves k) s ops :=
    Transition.along_of_forall fun op hop =>
      ⟨fun h => htakes (h ▸ hop), fun h => hleaves (h ▸ hop)⟩
  refine Transition.run_induction (I := fun u => s.Unmoved u ∧ u.StuckAt k)
    (fun u op u' hu hop hstep => ?_) ⟨Unmoved.refl s, hstuck⟩ hops hrun
  obtain ⟨hmoved, hstuck'⟩ := hu.2.step hop.1 hop.2 hstep
  exact ⟨hu.1.trans hmoved, hstuck'⟩

/-! Of two apps, the first takes none of a hundred answers to its heartbeats. -/

section

private def greet (workflowId : String) : ExecutionRequest := ⟨workflowId, "greet", 1, [], true⟩

private def fill : List ServerOp :=
  [.connect, .connect] ++
    (List.replicate capacity [.receive 0 (.heartbeat 7), .respond 0]).flatten ++
    [.request (greet "w"), .takeRequest, .lock [0, 1]]

private def endsStream : List ServerOp := [.request (greet "x"), .streamEnds 1]

/-- A request comes and the second app ends its stream, and neither gets anywhere. -/
theorem unmoved_fill : ∃ s t, Transition.run step (new true) fill = some s ∧
    Transition.run step s endsStream = some t ∧ s.Unmoved t ∧ t.StuckAt 0 := by
  have hfill : ((Transition.run step (new true) fill).map fun s =>
      (s.forwarder, (s.streams[0]?).map fun stream =>
        (stream.outgoing.closed, stream.outgoing.capacity, stream.outgoing.queue.length))) =
      some (.sending (greet "w") [0, 1], some (false, capacity, capacity)) := by decide +kernel
  have hends : (Transition.run step (new true) (fill ++ endsStream)).isSome := by decide +kernel
  obtain ⟨s, hs, hs'⟩ := Option.map_eq_some_iff.mp hfill
  obtain ⟨hsending, hstream⟩ := Prod.mk.inj hs'
  obtain ⟨stream, hk, hstream⟩ := Option.map_eq_some_iff.mp hstream
  simp only [Prod.mk.injEq] at hstream
  obtain ⟨hopen, hcapacity, hqueue⟩ := hstream
  obtain ⟨t, ht⟩ := Option.isSome_iff_exists.mp hends
  rw [Transition.run_append, hs, Option.bind_some] at ht
  have hstuck : s.StuckAt 0 :=
    ⟨greet "w", [1], stream, hsending, hk, hopen, by rw [hcapacity, hqueue]⟩
  exact ⟨s, t, hs, ht, unmoved_of_run hstuck (by decide) (by decide) ht⟩

end

/-! ## The bound -/

/-- What stands between an app and the last request: the messages it was sent and did not take,
and the request it is still to be sent. -/
def backlog (s : SidecarServer) (k : ℕ) : ℕ :=
  ((s.streams[k]?).map fun stream => stream.outgoing.queue.length).getD 0 + (s.pending k).length

/-- The stream is in the map, and its app there. -/
def Connected (s : SidecarServer) (k : ℕ) : Prop :=
  ∃ stream, s.streams[k]? = some stream ∧ stream.outgoing.closed = false ∧ stream.task ≠ .removed

/-- The queues of the streams stay within the capacity. -/
def Sized (s : SidecarServer) : Prop := ∀ (k : ℕ) (stream : AppStream),
  s.streams[k]? = some stream → stream.outgoing.capacity = capacity ∧ stream.outgoing.Bounded

theorem Sized.backlog_le {s : SidecarServer} (hs : s.Sized) (k : ℕ) :
    s.backlog k ≤ capacity + 1 := by
  have hqueue : ((s.streams[k]?).map fun stream => stream.outgoing.queue.length).getD 0 ≤
      capacity := by
    cases hk : s.streams[k]? with
    | none => exact Nat.zero_le _
    | some stream =>
      obtain ⟨hcapacity, hbounded⟩ := hs k stream hk
      exact hbounded.trans hcapacity.le
  have hpending : (s.pending k).length ≤ 1 := by
    unfold pending
    split
    · split
      · exact le_rfl
      · exact Nat.zero_le _
    · exact Nat.zero_le _
  exact Nat.add_le_add hqueue hpending

theorem sized_new (hasResults : Bool) : Sized (new hasResults) := by simp [Sized, new]

theorem Sized.set {s s' : SidecarServer} (hs : s.Sized) {k : ℕ} {stream stream' : AppStream}
    (hk : s.streams[k]? = some stream) (hstreams : s'.streams = s.streams.set k stream')
    (hcapacity : stream'.outgoing.capacity = stream.outgoing.capacity)
    (hbounded : stream.outgoing.Bounded → stream'.outgoing.Bounded) : s'.Sized := by
  intro j t hj
  rw [hstreams] at hj
  by_cases hjk : j = k
  · subst hjk
    rw [List.getElem?_set_self (List.getElem?_eq_some_iff.mp hk).1, Option.some.injEq] at hj
    obtain ⟨h, h'⟩ := hs j stream hk
    exact hj ▸ ⟨hcapacity.trans h, hbounded h'⟩
  · rw [List.getElem?_set_ne (Ne.symm hjk)] at hj
    exact hs j t hj

theorem Sized.step {s s' : SidecarServer} (hs : s.Sized) {op : ServerOp}
    (h : s.step op = some s') : s'.Sized := by
  cases stepped h with
  | request | takeRequest | lock | results => exact hs
  | forward _ hk hsend =>
    exact hs.set hk rfl (AppStream.send_outgoing hsend).1 (AppStream.send_outgoing hsend).2.1
  | connect =>
    intro k stream hk
    rw [List.getElem?_append] at hk
    split at hk
    · exact hs k stream hk
    · obtain rfl := List.mem_singleton.mp (List.mem_of_getElem? hk)
      exact ⟨rfl, Channel.bounded_new capacity⟩
  | @receive k incoming stream hk =>
    have hkept := AppStream.handle_outgoing stream s.results.isSome incoming
    exact hs.set hk rfl (by rw [hkept]) fun h => by rwa [hkept]
  | respond hk _ hsend =>
    exact hs.set hk rfl (AppStream.send_outgoing hsend).1 (AppStream.send_outgoing hsend).2.1
  | drop hk | passOn hk | streamEnds hk | remove hk => exact hs.set hk rfl rfl id
  | appTakes hk hrecv =>
    refine hs.set hk rfl ?_ fun h => h.recv hrecv
    obtain ⟨x, rest, -, rfl⟩ := Channel.recv_cases hrecv
    rfl
  | appLeaves hk => exact hs.set hk rfl rfl id

/-- One stream changes, and what it is still to be sent stays. -/
theorem Connected.set {s s' : SidecarServer} {k j : ℕ} (h : s.Connected k)
    {stream stream' : AppStream} (hj : s.streams[j]? = some stream)
    (hstreams : s'.streams = s.streams.set j stream') (hpending : s'.pending k = s.pending k)
    (hkept : j = k → stream'.outgoing.closed = stream.outgoing.closed ∧ stream'.task ≠ .removed ∧
      stream.outgoing.queue.length ≤ stream'.outgoing.queue.length) :
    s'.Connected k ∧ s.backlog k ≤ s'.backlog k := by
  obtain ⟨t, hk, hopen, htask⟩ := h
  unfold backlog
  rw [hpending]
  by_cases hjk : j = k
  · subst hjk
    obtain rfl : stream = t := Option.some.inj (hj.symm.trans hk)
    obtain ⟨hclosed, htask', hqueue⟩ := hkept rfl
    have hj' : s'.streams[j]? = some stream' := by
      rw [hstreams, List.getElem?_set_self (List.getElem?_eq_some_iff.mp hj).1]
    refine ⟨⟨stream', hj', hclosed.trans hopen, htask'⟩, ?_⟩
    simpa [hj, hj'] using hqueue
  · have hk' : s'.streams[k]? = some t := by
      rw [hstreams, List.getElem?_set_ne hjk]
      exact hk
    refine ⟨⟨t, hk', hopen, htask⟩, ?_⟩
    rw [hk, hk']

theorem Connected.lock {s : SidecarServer} {k : ℕ} (h : s.Connected k) {r : ExecutionRequest}
    {order : List ℕ} (hforwarder : s.forwarder = .locking r) (horder : order.Perm s.registered) :
    Connected { s with forwarder := Forwarder.next r order, forwarded := s.forwarded ++ [r] } k ∧
      (s.forwarded ++ [r]).length + s.backlog k ≤ s.forwarded.length +
        backlog { s with forwarder := Forwarder.next r order, forwarded := s.forwarded ++ [r] } k := by
  obtain ⟨stream, hk, hopen, htask⟩ := h
  have hmem : k ∈ order := horder.mem_iff.mpr (mem_registered.mpr ⟨stream, hk, htask⟩)
  have hidle : s.pending k = [] := by rw [pending, hforwarder]
  have hnext : pending
      { s with forwarder := Forwarder.next r order, forwarded := s.forwarded ++ [r] } k = [r] :=
    (pending_next s r order k).trans (if_pos hmem)
  refine ⟨⟨stream, hk, hopen, htask⟩, ?_⟩
  simp only [backlog, hidle, hnext, List.length_append, List.length_singleton, List.length_nil]
  omega

theorem Connected.forward {s : SidecarServer} (hs : s.Served) {k j : ℕ} (h : s.Connected k)
    {r : ExecutionRequest} {rest : List ℕ} {stream stream' : AppStream}
    (hforwarder : s.forwarder = .sending r (j :: rest)) (hj : s.streams[j]? = some stream)
    (hsend : stream.send r.message = some stream') :
    Connected { s.setStream j stream' with forwarder := Forwarder.next r rest } k ∧ s.backlog k ≤
      backlog { s.setStream j stream' with forwarder := Forwarder.next r rest } k := by
  obtain ⟨-, -, hclosed, htask, hqueue⟩ := AppStream.send_outgoing hsend
  obtain ⟨-, hnodup, -⟩ := hs.sending _ _ hforwarder
  obtain ⟨hfresh, -⟩ := List.nodup_cons.mp hnodup
  have hnext : pending { s.setStream j stream' with forwarder := Forwarder.next r rest } k =
      if k ∈ rest then [r] else [] := pending_next _ r rest k
  by_cases hjk : j = k
  · subst hjk
    obtain ⟨t, hk, hopen, hne⟩ := h
    obtain rfl : stream = t := Option.some.inj (hj.symm.trans hk)
    have hj' : (s.streams.set j stream')[j]? = some stream' :=
      List.getElem?_set_self (List.getElem?_eq_some_iff.mp hj).1
    have hpending : s.pending j = [r] := by simp [pending, hforwarder]
    rw [if_neg hfresh] at hnext
    refine ⟨⟨stream', hj', hclosed.trans hopen, htask ▸ hne⟩, ?_⟩
    unfold backlog
    rw [hnext, hpending]
    simp [setStream, hj, hj', hqueue, hopen]
  · have hpending : pending { s.setStream j stream' with forwarder := Forwarder.next r rest } k =
        s.pending k := by
      refine hnext.trans ?_
      simp [pending, hforwarder, Ne.symm hjk]
    exact h.set hj rfl hpending fun h' => absurd h' hjk

/-- A request that is forwarded to all stands in the way of the next. -/
theorem Connected.step {s s' : SidecarServer} (hs : s.Served) {k : ℕ} (h : s.Connected k)
    {op : ServerOp} (htakes : op ≠ .appTakes k) (hleaves : op ≠ .appLeaves k)
    (hremove : op ≠ .remove k) (hstep : s.step op = some s') :
    s'.Connected k ∧
      s'.forwarded.length + s.backlog k ≤ s.forwarded.length + s'.backlog k := by
  -- most steps forward nothing and leave the backlog as large as it was
  have hsame : ∀ {u : SidecarServer}, u.Connected k ∧ s.backlog k ≤ u.backlog k →
      u.forwarded = s.forwarded → u.Connected k ∧
        u.forwarded.length + s.backlog k ≤ s.forwarded.length + u.backlog k := by
    rintro u ⟨hu, hle⟩ hforwarded
    exact ⟨hu, by rw [hforwarded]; exact Nat.add_le_add_left hle _⟩
  cases stepped hstep with
  | request | results => exact ⟨h, le_rfl⟩
  | takeRequest hforwarder =>
    refine ⟨h, ?_⟩
    simp [backlog, pending, hforwarder]
  | lock hforwarder horder => exact h.lock hforwarder horder
  | forward hforwarder hj hsend => exact hsame (h.forward hs hforwarder hj hsend) rfl
  | connect hunlocked =>
    obtain ⟨stream, hk, hopen, htask⟩ := h
    have hk' : (s.streams ++
        [{ outgoing := { capacity := capacity }, joined := s.forwarded.length }])[k]? =
          some stream := by
      rw [List.getElem?_append_left (List.getElem?_eq_some_iff.mp hk).1]
      exact hk
    refine hsame ⟨⟨stream, hk', hopen, htask⟩, ?_⟩ rfl
    unfold backlog
    rw [hk, hk']
    exact le_rfl
  | @receive j incoming stream hj htask =>
    have hkept := AppStream.handle_outgoing stream s.results.isSome incoming
    have hstays := (AppStream.handle_keeps stream s.results.isSome incoming).2 (by simp [htask])
    exact hsame (h.set hj rfl rfl fun _ => ⟨by rw [hkept], hstays, by rw [hkept]⟩) rfl
  | respond hj _ hsend =>
    obtain ⟨-, -, hclosed, -, hqueue⟩ := AppStream.send_outgoing hsend
    exact hsame (h.set hj rfl rfl fun _ => ⟨hclosed, by simp, hqueue ▸ Nat.le_add_right _ _⟩) rfl
  | drop hj | streamEnds hj =>
    exact hsame (h.set hj rfl rfl fun _ => ⟨rfl, by simp, le_rfl⟩) rfl
  | passOn hj => exact hsame (h.set hj rfl rfl fun _ => ⟨rfl, by simp, le_rfl⟩) rfl
  | remove hj =>
    exact hsame (h.set hj rfl rfl fun hjk => absurd (by rw [hjk]) hremove) rfl
  | appTakes hj => exact hsame (h.set hj rfl rfl fun hjk => absurd (by rw [hjk]) htakes) rfl
  | appLeaves hj => exact hsame (h.set hj rfl rfl fun hjk => absurd (by rw [hjk]) hleaves) rfl

/-- While an app stays and takes nothing, no more requests are forwarded, to any app, than fit in
its channel, and one. -/
theorem forwarded_le_of_run {s t : SidecarServer} {hasResults : Bool} {before ops : List ServerOp}
    {k : ℕ} (hbefore : Transition.run step (new hasResults) before = some s) (hk : s.Connected k)
    (htakes : .appTakes k ∉ ops) (hleaves : .appLeaves k ∉ ops) (hremove : .remove k ∉ ops)
    (hrun : Transition.run step s ops = some t) :
    t.forwarded.length + s.backlog k ≤ s.forwarded.length + (capacity + 1) := by
  have hops : Transition.Along step
      (fun _ op => op ≠ .appTakes k ∧ op ≠ .appLeaves k ∧ op ≠ .remove k) s ops :=
    Transition.along_of_forall fun op hop =>
      ⟨fun h => htakes (h ▸ hop), fun h => hleaves (h ▸ hop), fun h => hremove (h ▸ hop)⟩
  have hsized : s.Sized := Transition.run_induction (fun _ _ _ hu _ h => hu.step h)
    (sized_new hasResults) Transition.along_true hbefore
  obtain ⟨-, hsized', -, hle⟩ := Transition.run_induction
    (I := fun u => u.Served ∧ u.Sized ∧ u.Connected k ∧
      u.forwarded.length + s.backlog k ≤ s.forwarded.length + u.backlog k)
    (fun u op u' hu hop hstep => by
      obtain ⟨hserved, hsized, hconnected, hle⟩ := hu
      obtain ⟨hconnected', hle'⟩ :=
        hconnected.step hserved hop.1 hop.2.1 hop.2.2 hstep
      exact ⟨hserved.step hstep, hsized.step hstep, hconnected', by omega⟩)
    ⟨served_of_run hbefore, hsized, hk, le_rfl⟩ hops hrun
  have hbacklog := hsized'.backlog_le k
  omega

section

private def one : List ServerOp := [.connect, .request (greet "v"), .takeRequest, .lock [0], .forward]

private def another : List ServerOp :=
  [.connect, .request (greet "w"), .takeRequest, .lock [1, 0], .forward, .appTakes 1, .forward]

/-- The first app was sent one request, and a second app gets the next as well. -/
theorem forwarded_le_another : ∃ s t, Transition.run step (new true) one = some s ∧
    Transition.run step s another = some t ∧ t.forwarded = [greet "v", greet "w"] ∧
    t.forwarded.length + s.backlog 0 ≤ s.forwarded.length + (capacity + 1) := by
  have htakes : .appTakes 0 ∉ another := by decide
  have hone : Transition.run step (new true) one = some _ := rfl
  exact ⟨_, _, hone, rfl, rfl, forwarded_le_of_run hone ⟨_, rfl, rfl, by decide⟩ htakes
    (by decide) (by decide) rfl⟩

end

end SidecarServer

end Raftoral
