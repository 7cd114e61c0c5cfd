import Raftoral.Raft.NodeRun
import Raftoral.Raft.QuietSteps

/-!
# The failure detector

`check_follower_progress` compares the matched index that raft-rs reports for a peer with the
one in `follower_progress`, and reports a lagging peer whose entry is older than the timeout.
An entry is written by a check, but nothing takes it out when the node stops leading or the
peer leaves the configuration, and raft-rs starts every leadership with matched indices of
zero.

The table says since when a peer is stuck, so a report is justified when the node led, and the
peer was a member, ever since its entry was written (`justified_of_fresh`). With an entry of an
earlier leadership a peer is reported by the first check of the next one.
-/

namespace Raftoral

open RaftNode

variable {σ Command Event S : Type}

/-! ## One check -/

namespace RaftNode

/-- What a check does for a peer: it writes the table, or it compares the peer with the entry
that is there. -/
inductive Verdict where
  | ignored
  | recorded (matched : ℕ)
  | stuckSince (lastUpdate : ℕ)
deriving DecidableEq, Repr

/-- The verdict on a peer with a matched index. -/
def verdictOn (nodeId commit : ℕ) (table : ℕ → Option (ℕ × ℕ)) (peerId matched : ℕ) : Verdict :=
  if peerId = nodeId then .ignored
  else if commit ≤ matched then .recorded matched
  else match table peerId with
    | none => .recorded matched
    | some (lastMatched, lastUpdate) =>
      if lastMatched < matched then .recorded matched else .stuckSince lastUpdate

/-- The verdict on a peer of a progress table. -/
def verdictIn (n : RaftNode σ Event S) (io : ReadyIo) (peers : List (ℕ × ℕ))
    (table : ℕ → Option (ℕ × ℕ)) (peerId : ℕ) : Verdict :=
  match peers.lookup peerId with
  | none => .ignored
  | some matched => verdictOn n.nodeId io.raftCommitted table peerId matched

def verdict (n : RaftNode σ Event S) (io : ReadyIo) (peerId : ℕ) : Verdict :=
  verdictIn n io io.progress n.followerProgress peerId

def Verdict.isRecorded : Verdict → Bool
  | .recorded _ => true
  | .ignored | .stuckSince _ => false

def Verdict.isStuck : Verdict → Bool
  | .stuckSince _ => true
  | .ignored | .recorded _ => false

/-- What a verdict does to the entry of the peer. -/
def Verdict.entry (now : ℕ) : Verdict → Option (ℕ × ℕ) → Option (ℕ × ℕ)
  | .recorded matched, _ => some (matched, now)
  | .ignored, entry | .stuckSince _, entry => entry

/-- The peer is reported. -/
def Verdict.fails (timeout now : ℕ) : Verdict → Bool
  | .stuckSince lastUpdate => decide (timeout < now - lastUpdate)
  | .ignored | .recorded _ => false

/-- One turn of the loop over the peers. -/
theorem trackProgress_cons (n : RaftNode σ Event S) (io : ReadyIo) (p m : ℕ)
    (rest : List (ℕ × ℕ)) (table : ℕ → Option (ℕ × ℕ)) :
    trackProgress n io ((p, m) :: rest) table =
      let v := verdictOn n.nodeId io.raftCommitted table p m
      let r := trackProgress n io rest (Function.update table p (v.entry io.now (table p)))
      (if v.fails n.failureDetectionTimeout io.now then p :: r.1 else r.1, r.2) := by
  unfold verdictOn
  rw [trackProgress]
  split_ifs with hself hcaught
  · simp [Verdict.entry, Verdict.fails]
  · simp [Verdict.entry, Verdict.fails]
  · cases hentry : table p with
    | none => simp [Verdict.entry, Verdict.fails]
    | some entry =>
      obtain ⟨last, update⟩ := entry
      have hsame : Function.update table p (some (last, update)) = table := by
        rw [← hentry, Function.update_eq_self]
      by_cases hprogress : last < m
      · simp [hprogress, Verdict.entry, Verdict.fails]
      · simp only [hprogress, if_false, Verdict.entry, Verdict.fails, hsame]
        split_ifs with htimeout hfails hfails
        · rfl
        · exact absurd (decide_eq_true htimeout) hfails
        · exact absurd (of_decide_eq_true hfails) htimeout
        · rfl

/-- The verdict only reads the entry of the peer. -/
theorem verdictIn_update {n : RaftNode σ Event S} {io : ReadyIo} {p q : ℕ} (h : p ≠ q)
    (peers : List (ℕ × ℕ)) (table : ℕ → Option (ℕ × ℕ)) (entry : Option (ℕ × ℕ)) :
    verdictIn n io peers (Function.update table q entry) p = verdictIn n io peers table p := by
  unfold verdictIn verdictOn
  rw [Function.update_of_ne h]

theorem verdictIn_cons_self (n : RaftNode σ Event S) (io : ReadyIo) (p m : ℕ)
    (rest : List (ℕ × ℕ)) (table : ℕ → Option (ℕ × ℕ)) :
    verdictIn n io ((p, m) :: rest) table p = verdictOn n.nodeId io.raftCommitted table p m := by
  rw [verdictIn, List.lookup_cons_self]

theorem verdictIn_cons_of_ne {n : RaftNode σ Event S} {io : ReadyIo} {p q : ℕ} (h : p ≠ q) (m : ℕ)
    (rest : List (ℕ × ℕ)) (table : ℕ → Option (ℕ × ℕ)) :
    verdictIn n io ((q, m) :: rest) table p = verdictIn n io rest table p := by
  rw [verdictIn, verdictIn, List.lookup_cons, beq_eq_false_iff_ne.mpr h]

theorem verdictIn_of_not_mem {n : RaftNode σ Event S} {io : ReadyIo} {p : ℕ}
    {peers : List (ℕ × ℕ)} (h : p ∉ peers.map Prod.fst) (table : ℕ → Option (ℕ × ℕ)) :
    verdictIn n io peers table p = .ignored := by
  have hnone : peers.lookup p = none := by
    rw [List.lookup_eq_none_iff]
    intro x hx
    rw [bne_iff_ne]
    rintro rfl
    exact h (List.mem_map_of_mem hx)
  rw [verdictIn, hnone]

/-- The table after the loop, entry by entry, and the peers it reports. -/
theorem trackProgress_spec (n : RaftNode σ Event S) (io : ReadyIo) {peers : List (ℕ × ℕ)}
    (hnodup : (peers.map Prod.fst).Nodup) (table : ℕ → Option (ℕ × ℕ)) (p : ℕ) :
    (trackProgress n io peers table).2 p =
        (verdictIn n io peers table p).entry io.now (table p) ∧
      (p ∈ (trackProgress n io peers table).1 ↔
        (verdictIn n io peers table p).fails n.failureDetectionTimeout io.now) := by
  induction peers generalizing table with
  | nil => simp [trackProgress, verdictIn, Verdict.entry, Verdict.fails]
  | cons x rest ih =>
    obtain ⟨q, m⟩ := x
    rw [List.map_cons, List.nodup_cons] at hnodup
    rw [trackProgress_cons]
    set v := verdictOn n.nodeId io.raftCommitted table q m with hv
    obtain ⟨htable, hfailed⟩ := ih hnodup.2 (Function.update table q (v.entry io.now (table q)))
    by_cases hp : p = q
    · subst hp
      -- the rest of the loop does not see this peer again
      rw [verdictIn_of_not_mem hnodup.1] at htable hfailed
      rw [verdictIn_cons_self, ← hv]
      refine ⟨by simpa [Verdict.entry] using htable, ?_⟩
      dsimp only
      split_ifs with hfails
      · simp [hfails]
      · rw [hfailed]
        exact ⟨fun h => absurd h (by simp [Verdict.fails]), fun h => absurd h hfails⟩
    · rw [verdictIn_update hp, Function.update_of_ne hp] at htable
      rw [verdictIn_update hp] at hfailed
      rw [verdictIn_cons_of_ne hp]
      refine ⟨htable, ?_⟩
      rw [← hfailed]
      dsimp only
      split_ifs with hfails
      · simp [hp]
      · rfl

theorem verdict_recorded {n : RaftNode σ Event S} {io : ReadyIo} {p k : ℕ}
    (h : n.verdict io p = .recorded k) : io.progress.lookup p = some k := by
  unfold verdict verdictIn at h
  cases hlookup : io.progress.lookup p with
  | none => simp [hlookup] at h
  | some m =>
    rw [hlookup] at h
    unfold verdictOn at h
    rcases hentry : n.followerProgress p with _ | ⟨last, update⟩
    all_goals
      simp only [hentry] at h
      split_ifs at h
      all_goals simp_all

/-- A stuck peer is behind the commit index and not ahead of its entry. -/
theorem verdict_stuckSince {n : RaftNode σ Event S} {io : ReadyIo} {p t : ℕ}
    (h : n.verdict io p = .stuckSince t) : ∃ m last, io.progress.lookup p = some m ∧
      n.followerProgress p = some (last, t) ∧ m < io.raftCommitted ∧ m ≤ last := by
  unfold verdict verdictIn at h
  cases hlookup : io.progress.lookup p with
  | none => simp [hlookup] at h
  | some m =>
    rw [hlookup] at h
    unfold verdictOn at h
    rcases hentry : n.followerProgress p with _ | ⟨last, update⟩
    all_goals
      simp only [hentry] at h
      split_ifs at h
    obtain rfl := Verdict.stuckSince.inj h
    exact ⟨m, last, rfl, rfl, by omega, by omega⟩

/-! ## From a ready to a check -/

/-- What nothing but a check touches. -/
structure WatchFrame (n n' : RaftNode σ Event S) : Prop where
  nodeId : n'.nodeId = n.nodeId
  failureDetectionTimeout : n'.failureDetectionTimeout = n.failureDetectionTimeout
  followerProgress : n'.followerProgress = n.followerProgress

theorem WatchFrame.refl (n : RaftNode σ Event S) : WatchFrame n n := ⟨rfl, rfl, rfl⟩

theorem WatchFrame.trans (n₁ n₂ n₃ : RaftNode σ Event S) (h₁ : WatchFrame n₁ n₂)
    (h₂ : WatchFrame n₂ n₃) : WatchFrame n₁ n₃ where
  nodeId := h₂.nodeId.trans h₁.nodeId
  failureDetectionTimeout := h₂.failureDetectionTimeout.trans h₁.failureDetectionTimeout
  followerProgress := h₂.followerProgress.trans h₁.followerProgress

theorem Quiet.watch {n n' : RaftNode σ Event S} (h : Quiet n n') : WatchFrame n n' :=
  ⟨h.nodeId, h.failureDetectionTimeout, h.followerProgress⟩

theorem completeProposal_watch (syncId : Option ℕ) (result : Except String Unit)
    (n : RaftNode σ Event S) : WatchFrame n (n.completeProposal syncId result) := by
  unfold completeProposal
  cases syncId with
  | none => exact WatchFrame.refl n
  | some id =>
    dsimp only
    split_ifs
    · exact ⟨rfl, rfl, rfl⟩
    · exact WatchFrame.refl n

theorem publishBatch_watch (events : List Event) (n : RaftNode σ Event S) :
    WatchFrame n (n.publishBatch events) := by
  unfold publishBatch
  split_ifs
  · exact WatchFrame.refl n
  · exact ⟨rfl, rfl, rfl⟩

theorem perform_watch [SerdeJson Command] [SerdeJson NodeMetadata] (n : RaftNode σ Event S)
    (c : Call Command) : WatchFrame n (n.perform c) := by
  cases c with
  | addNode answers syncId nodeId address =>
    simp only [perform, addNode]
    split <;> exact ⟨rfl, rfl, rfl⟩
  | _ => exact ⟨rfl, rfl, rfl⟩

section
variable [ProstMessage ConfChange] [SerdeJson NodeMetadata] [StateMachine σ Command Event]
  [SerdeJson Command]

omit [ProstMessage ConfChange] [SerdeJson NodeMetadata] in
theorem applyNormal_watch (e : Entry) (n : RaftNode σ Event S) : WatchFrame n (n.applyNormal e) := by
  have hresult : ∀ (r : Except String (List Event)) (m : RaftNode σ Event S),
      WatchFrame m (m.publishResult r) := by
    intro r m
    cases r with
    | error e => exact WatchFrame.refl m
    | ok events => exact publishBatch_watch events m
  let r := applyCommand n.stateMachine e.data
  have happly : WatchFrame n { n with stateMachine := r.2 } := ⟨rfl, rfl, rfl⟩
  have hanswer := WatchFrame.trans _ _ _ (happly.trans _ _ _ (hresult r.1 _))
    (completeProposal_watch (entrySyncId e.context) (r.1.map fun _ => ()) _)
  exact ⟨hanswer.nodeId, hanswer.failureDetectionTimeout, hanswer.followerProgress⟩

omit [StateMachine σ Command Event] [SerdeJson Command] in
theorem applyConfChange_watch (io : ReadyIo) (e : Entry) (n : RaftNode σ Event S) :
    WatchFrame n (applyConfChange io e n).2 := by
  unfold applyConfChange
  cases (ProstMessage.decode e.data : Except String ConfChange) with
  | error e => exact WatchFrame.refl n
  | ok cc =>
    cases io.applyConfChange e with
    | error e => exact WatchFrame.refl n
    | ok cs =>
      exact WatchFrame.trans n
        { n with cachedConfState := cs, peers := (confChangePeers cc n.peers).2 } _
        ⟨rfl, rfl, rfl⟩ (completeProposal_watch _ _ _)

theorem applyCommitted_watch (io : ReadyIo) (es : List Entry) (n : RaftNode σ Event S) :
    WatchFrame n (applyCommitted io es n).2 := by
  refine Step.forEach_rel WatchFrame.refl WatchFrame.trans ?_ n
  intro e _ n
  unfold applyEntry
  split_ifs
  · exact WatchFrame.refl n
  · cases e.entryType with
    | entryNormal => exact applyNormal_watch e n
    | entryConfChange => exact applyConfChange_watch io e n
    | entryConfChangeV2 => exact applyConfChange_watch io e n

variable [RaftStorage S]

/-- The statements of `on_ready` before the check. -/
def stepsBeforeCheck (io : ReadyIo) : List (Step (RaftNode σ Event S) NodeError) :=
  takeReady io ++ ([changeRole io] ++ (sendReady io ++ (advanceReady io ++
    [maybeCreateSnapshot io])))

theorem readySteps_eq (io : ReadyIo) : (readySteps io : List (Step (RaftNode σ Event S) NodeError)) =
    stepsBeforeCheck io ++ [checkFollowerProgress io] := by
  simp [readySteps, stepsBeforeCheck]

theorem stepsBeforeCheck_watch (io : ReadyIo) (n : RaftNode σ Event S) :
    WatchFrame n (Step.block (stepsBeforeCheck io) n).2 := by
  refine Step.block_rel WatchFrame.refl WatchFrame.trans ?_ n
  intro a ha n
  simp only [stepsBeforeCheck, takeReady, sendReady, advanceReady, List.cons_append,
    List.nil_append, List.mem_cons, List.not_mem_nil, or_false] at ha
  obtain rfl | rfl | rfl | rfl | rfl | rfl | rfl | rfl | rfl | rfl | rfl | rfl | rfl := ha
  · exact (restoreSnapshot_quiet io n).watch
  · exact applyCommitted_watch io _ n
  · exact (persistEntries_quiet io n).watch
  · exact (persistHardState_quiet io n).watch
  · exact (changeRole_quiet io n).watch
  · exact (sendAll_quiet _ _ n).watch
  · exact (sendAll_quiet _ _ n).watch
  · exact ⟨rfl, rfl, rfl⟩
  · exact (updateCommit_quiet io n).watch
  · exact (sendAll_quiet _ _ n).watch
  · exact applyCommitted_watch io _ n
  · exact ⟨rfl, rfl, rfl⟩
  · exact (maybeCreateSnapshot_quiet io n).watch

/-- The node that `check_follower_progress` examines the followers of, if a call of `on_ready`
gets there. -/
def checkedNode (io : ReadyIo) (n : RaftNode σ Event S) : Option (RaftNode σ Event S) :=
  if io.hasReady then
    (Step.goOn (Step.block (stepsBeforeCheck io)) n).filter fun n' =>
      n'.failureDetectionTimeout ≠ 0 ∧ n'.currentRole = .leader
  else none

/-- The peers a call of `on_ready` reports. -/
def reported (io : ReadyIo) (n : RaftNode σ Event S) : List ℕ :=
  ((checkedNode io n).map fun n' =>
    (trackProgress n' io io.progress n'.followerProgress).1).getD []

omit [ProstMessage ConfChange] [SerdeJson NodeMetadata] [SerdeJson Command] [RaftStorage S] in
theorem checkFollowerProgress_of_leader {io : ReadyIo} {n : RaftNode σ Event S}
    (htimeout : n.failureDetectionTimeout ≠ 0) (hleader : n.currentRole = .leader) :
    checkFollowerProgress io n =
      (.next, (trackProgress n io io.progress n.followerProgress).1.foldl reportFailed { n with
        followerProgress := (trackProgress n io io.progress n.followerProgress).2 }) := by
  rw [checkFollowerProgress, if_neg htimeout, if_neg (not_not.mpr hleader)]

/-- The check comes last: it sees the table as the call found it, and it ends the call. -/
theorem onReady_of_check {io : ReadyIo} {n n' : RaftNode σ Event S}
    (h : checkedNode io n = some n') : WatchFrame n n' ∧
      onReady io n = (.next, (reported io n).foldl reportFailed { n' with
        followerProgress := (trackProgress n' io io.progress n'.followerProgress).2 }) := by
  have hreported : reported io n = (trackProgress n' io io.progress n'.followerProgress).1 := by
    rw [reported, h]
    rfl
  unfold checkedNode at h
  split_ifs at h with hready
  obtain ⟨hgo, hcond⟩ := Option.filter_eq_some_iff.mp h
  obtain ⟨htimeout, hleader⟩ := of_decide_eq_true hcond
  have hblock := Step.goOn_eq_some_iff.mp hgo
  refine ⟨?_, ?_⟩
  · have hframe := stepsBeforeCheck_watch io n
    rwa [hblock] at hframe
  · rw [onReady, if_pos hready, readySteps_eq, Step.block_append hblock,
      Step.block_cons_of_next (checkFollowerProgress_of_leader htimeout hleader), hreported]
    rfl

/-- A call that does not get to the check leaves the table alone. -/
theorem onReady_of_no_check {io : ReadyIo} {n : RaftNode σ Event S}
    (h : checkedNode io n = none) : WatchFrame n (onReady io n).2 := by
  unfold onReady
  split_ifs with hready
  · rw [checkedNode, if_pos hready, Option.filter_eq_none_iff] at h
    have hframe := stepsBeforeCheck_watch io n
    rw [readySteps_eq]
    rcases hblock : Step.block (stepsBeforeCheck io) n with ⟨_ | _ | e, n'⟩
    · have hskip := h n' (Step.goOn_eq_some_iff.mpr hblock)
      rw [hblock] at hframe
      have hcheck : checkFollowerProgress io n' = (.next, n') := by
        unfold checkFollowerProgress
        split_ifs with htimeout hrole
        · rfl
        · rfl
        · exact absurd (decide_eq_true ⟨htimeout, not_not.mp hrole⟩) hskip
      rw [Step.block_append hblock, Step.block_cons_of_next hcheck]
      exact hframe
    all_goals
      rw [Step.block_append_of_ne_next (by rw [hblock]; simp)]
      exact hframe
  · exact WatchFrame.refl n

omit [ProstMessage ConfChange] [SerdeJson NodeMetadata] [SerdeJson Command] [RaftStorage S] in
/-- A reported peer is not tracked any longer. -/
theorem followerProgress_reportFailed (failed : List ℕ) (n : RaftNode σ Event S) (p : ℕ) :
    (failed.foldl reportFailed n).followerProgress p =
        (if p ∈ failed then none else n.followerProgress p) ∧
      (failed.foldl reportFailed n).failureDetectionTimeout = n.failureDetectionTimeout := by
  induction failed generalizing n with
  | nil => exact ⟨rfl, rfl⟩
  | cons q failed ih =>
    have hpublish := publishBatch_watch (StateMachine.onFollowerFailed n.stateMachine q) n
    have hentry : (n.reportFailed q).followerProgress = Function.update n.followerProgress q none := by
      rw [← hpublish.followerProgress]
      rfl
    obtain ⟨htable, htimeout⟩ := ih (n.reportFailed q)
    rw [List.foldl_cons, htable, htimeout, hentry]
    refine ⟨?_, hpublish.failureDetectionTimeout⟩
    by_cases hp : p = q
    · simp [hp]
    · simp [hp]

/-- A call with a check, from the state the call started in. -/
theorem onReady_checked {io : ReadyIo} {n n' : RaftNode σ Event S} (h : checkedNode io n = some n')
    (hnodup : (io.progress.map Prod.fst).Nodup) (p : ℕ) :
    (onReady io n).2.followerProgress p = (if p ∈ reported io n then none
        else (n.verdict io p).entry io.now (n.followerProgress p)) ∧
      (p ∈ reported io n ↔ (n.verdict io p).fails n.failureDetectionTimeout io.now) ∧
      (onReady io n).2.failureDetectionTimeout = n.failureDetectionTimeout := by
  obtain ⟨hframe, heq⟩ := onReady_of_check h
  obtain ⟨htable, hfailed⟩ := trackProgress_spec n' io hnodup n'.followerProgress p
  have hverdict : verdictIn n' io io.progress n'.followerProgress p = n.verdict io p := by
    unfold verdict verdictIn
    rw [hframe.nodeId, hframe.followerProgress]
  have hreported : reported io n = (trackProgress n' io io.progress n'.followerProgress).1 := by
    rw [reported, h]
    rfl
  obtain ⟨hentry, htimeout⟩ := followerProgress_reportFailed (reported io n) { n' with
    followerProgress := (trackProgress n' io io.progress n'.followerProgress).2 } p
  rw [heq]
  refine ⟨?_, ?_, htimeout.trans hframe.failureDetectionTimeout⟩
  · rw [hverdict, hframe.followerProgress] at htable
    rw [hentry, ← htable, hframe.followerProgress]
  · rw [hreported, hfailed, hverdict, hframe.failureDetectionTimeout]

end

end RaftNode

/-! ## Leaderships and what the detector sees of them -/

/-- raft-rs at a moment: the clock, whether the node leads, the matched index of every member of
the configuration, and the commit index. -/
structure RaftMoment where
  time : ℕ
  leads : Bool
  progress : List (ℕ × ℕ)
  committed : ℕ
deriving DecidableEq, Repr

/-- The matched index of a member. -/
def RaftMoment.matched (m : RaftMoment) (p : ℕ) : Option ℕ := m.progress.lookup p

/-- From one moment to the next: a leader's matched indices do not go down, and becoming the
leader resets those of the peers. -/
def RaftMoment.Precedes (nodeId : ℕ) (m m' : RaftMoment) : Prop :=
  m'.leads → ∀ x ∈ m'.progress,
    if m.leads then ∀ y ∈ m.progress, y.1 = x.1 → y.2 ≤ x.2 else x.1 ≠ nodeId → x.2 = 0

instance (nodeId : ℕ) (m m' : RaftMoment) : Decidable (m.Precedes nodeId m') :=
  inferInstanceAs (Decidable (m'.leads → ∀ x ∈ m'.progress,
    if m.leads then ∀ y ∈ m.progress, y.1 = x.1 → y.2 ≤ x.2 else x.1 ≠ nodeId → x.2 = 0))

/-- A moment, and whether the followers were checked at it. -/
structure Visit where
  moment : RaftMoment
  checked : Bool
deriving DecidableEq, Repr

/-- A peer reported at a visit of the history. -/
structure Accusation where
  peer : ℕ
  check : ℕ
deriving DecidableEq, Repr

/-- What a report needs: an earlier check, longer ago than the timeout, such that the node led
and the peer was a member ever since, with the same matched index behind the commit index. -/
def Accusation.Justified (a : Accusation) (timeout : ℕ) (history : List Visit) : Prop :=
  ∃ i < a.check, ∃ v₀ ∈ history[i]?, ∃ v ∈ history[a.check]?, v₀.checked = true ∧
    timeout < v.moment.time - v₀.moment.time ∧
    ∃ k ∈ v.moment.matched a.peer, k < v.moment.committed ∧
      ∀ u ∈ (history.take (a.check + 1)).drop i,
        u.moment.leads = true ∧ u.moment.matched a.peer = some k

instance (a : Accusation) (timeout : ℕ) (history : List Visit) :
    Decidable (a.Justified timeout history) :=
  inferInstanceAs (Decidable (∃ i < a.check, ∃ v₀ ∈ history[i]?, ∃ v ∈ history[a.check]?,
    v₀.checked = true ∧ timeout < v.moment.time - v₀.moment.time ∧
    ∃ k ∈ v.moment.matched a.peer, k < v.moment.committed ∧
      ∀ u ∈ (history.take (a.check + 1)).drop i,
        u.moment.leads = true ∧ u.moment.matched a.peer = some k))

/-- A report stays justified as the history goes on. -/
theorem Accusation.Justified.append {a : Accusation} {timeout : ℕ} {history : List Visit}
    (h : a.Justified timeout history) (later : List Visit) :
    a.Justified timeout (history ++ later) := by
  obtain ⟨i, hi, v₀, hv₀, v, hv, hchecked, helapsed, k, hk, hbehind, hstuck⟩ := h
  have hlen : a.check < history.length := (List.getElem?_eq_some_iff.mp hv).1
  have hsame : ∀ j, j < history.length → (history ++ later)[j]? = history[j]? :=
    fun j hj => List.getElem?_append_left hj
  refine ⟨i, hi, v₀, ?_, v, ?_, hchecked, helapsed, k, hk, hbehind, ?_⟩
  · rw [hsame i (by omega)]
    exact hv₀
  · rw [hsame a.check hlen]
    exact hv
  · rwa [List.take_append_of_le_length (by omega)]

/-- The matched index of a member does not go down while the node leads. -/
theorem RaftMoment.Precedes.matched_le {nodeId p k k' : ℕ} {m m' : RaftMoment}
    (h : m.Precedes nodeId m') (hm : m.leads) (hm' : m'.leads) (hk : m.matched p = some k)
    (hk' : m'.matched p = some k') : k ≤ k' := by
  have hmem : ∀ {m : RaftMoment} {k : ℕ}, m.matched p = some k → (p, k) ∈ m.progress := by
    intro m k h
    obtain ⟨l₁, l₂, heq, -⟩ := List.lookup_eq_some_iff.mp h
    rw [heq]
    exact List.mem_append_right l₁ List.mem_cons_self
  have hstep := h hm' (p, k') (hmem hk')
  rw [if_pos hm] at hstep
  exact hstep (p, k) (hmem hk) rfl

/-- A member that ends where it started, under a node that led all the time, was there all the
time. -/
theorem matched_eq_of_leads {nodeId p k k' : ℕ} {since : List Visit} {first last : Visit}
    (hchain : (since.map Visit.moment).IsChain (RaftMoment.Precedes nodeId))
    (hhead : since.head? = some first) (hend : since.getLast? = some last)
    (hled : ∀ u ∈ since, u.moment.leads = true ∧ (u.moment.matched p).isSome)
    (hfirst : first.moment.matched p = some k) (hlast : last.moment.matched p = some k')
    (hle : k' ≤ k) : ∀ u ∈ since, u.moment.matched p = some k := by
  let f : Visit → ℕ := fun u => (u.moment.matched p).getD 0
  have hf : ∀ u ∈ since, u.moment.matched p = some (f u) := by
    intro u hu
    obtain ⟨j, hj⟩ := Option.isSome_iff_exists.mp (hled u hu).2
    rw [hj]
    simp [f, hj]
  have hgrows : since.Pairwise fun u u' => f u ≤ f u' := by
    rw [← List.isChain_iff_pairwise]
    refine ((List.isChain_map Visit.moment).mp hchain).imp_of_mem_imp ?_
    intro u u' hu hu' hprec
    exact hprec.matched_le (hled u hu).1 (hled u' hu').1 (hf u hu) (hf u' hu')
  have hbelow : ∀ u ∈ since, f first ≤ f u := by
    obtain ⟨rest, rfl⟩ := List.head?_eq_some_iff.mp hhead
    intro u hu
    rcases List.mem_cons.mp hu with rfl | hu
    · exact Nat.le_refl _
    · exact (List.pairwise_cons.mp hgrows).1 u hu
  have habove : ∀ u ∈ since, f u ≤ f last := by
    obtain ⟨init, rfl⟩ := List.getLast?_eq_some_iff.mp hend
    intro u hu
    rcases List.mem_append.mp hu with hu | hu
    · exact (List.pairwise_append.mp hgrows).2.2 u hu last List.mem_cons_self
    · rw [List.mem_singleton.mp hu]
  have hk : f first = k := by simp [f, hfirst]
  have hk' : f last = k' := by simp [f, hlast]
  intro u hu
  have h₁ := hbelow u hu
  have h₂ := habove u hu
  rw [hf u hu]
  congr 1
  omega

/-- A step of the node, the moments raft-rs went through before it and the one it is taken at. -/
structure Observed (Command : Type) where
  op : NodeOp Command
  between : List RaftMoment := []
  moment : RaftMoment

/-- A run of a node beside what raft-rs went through. `recordedAt` is the visit that wrote the
entry of a peer last. -/
structure WatchedRun (σ Event S : Type) where
  run : NodeRun σ Event S
  history : List Visit := []
  recordedAt : ℕ → ℕ := fun _ => 0
  accusations : List Accusation := []

namespace WatchedRun

section
variable [ProstMessage ConfChange] [SerdeJson NodeMetadata] [StateMachine σ Command Event]
  [SerdeJson Command] [RaftStorage S]

/-- The ready of a step that gets to the check. -/
def checks (w : WatchedRun σ Event S) (a : Observed Command) : Option ReadyIo :=
  match a.op with
  | .ready io => if (checkedNode io w.run.node).isSome then some io else none
  | _ => none

/-- The position of the step in the history. -/
def position (w : WatchedRun σ Event S) (a : Observed Command) : ℕ :=
  w.history.length + a.between.length

/-- The history up to the step. -/
def visits (w : WatchedRun σ Event S) (a : Observed Command) : List Visit :=
  w.history ++ (a.between.map (⟨·, false⟩) ++ [⟨a.moment, (w.checks a).isSome⟩])

/-- The step compares a lagging peer with its entry. -/
def compares (w : WatchedRun σ Event S) (a : Observed Command) (p : ℕ) : Bool :=
  (w.checks a).any fun io => (w.run.node.verdict io p).isStuck

/-- What raft-rs promises of the moments, and that a check reads its values at the moment it is
made. -/
structure Lawful (w : WatchedRun σ Event S) (a : Observed Command) : Prop where
  moments : ((w.visits a).map Visit.moment).IsChain (RaftMoment.Precedes w.run.node.nodeId)
  members : (a.moment.progress.map Prod.fst).Nodup
  reads : ∀ io ∈ w.checks a, io.now = a.moment.time ∧ io.progress = a.moment.progress ∧
    io.raftCommitted = a.moment.committed

/-- The node led and the peer was a member ever since the entry was written that the step
compares the peer with. -/
def Fresh (w : WatchedRun σ Event S) (a : Observed Command) : Prop :=
  ∀ p ∈ a.moment.progress.map Prod.fst, w.compares a p →
    ∀ u ∈ (w.visits a).drop (w.recordedAt p), u.moment.leads = true ∧
      (u.moment.matched p).isSome

variable [ProstMessage Message]

def step (w : WatchedRun σ Event S) (a : Observed Command) : Option (WatchedRun σ Event S) :=
  (w.run.step a.op).map fun run =>
    { run
      history := w.visits a
      recordedAt := fun p =>
        if (w.checks a).any fun io => (w.run.node.verdict io p).isRecorded then w.position a
        else w.recordedAt p
      accusations := w.accusations ++
        (((w.checks a).map (reported · w.run.node)).getD []).map (⟨·, w.position a⟩) }

/-- A step without a check leaves the table alone. -/
theorem step_of_no_check {w w' : WatchedRun σ Event S} {a : Observed Command}
    (hcheck : w.checks a = none) (hs : w.step a = some w') :
    WatchFrame w.run.node w'.run.node ∧ w'.history = w.visits a ∧ w'.recordedAt = w.recordedAt ∧
      w'.accusations = w.accusations := by
  obtain ⟨run, hrun, rfl⟩ := Option.map_eq_some_iff.mp hs
  refine ⟨?_, rfl, by simp [hcheck], by simp [hcheck]⟩
  obtain ⟨op, between, moment⟩ := a
  unfold NodeRun.step at hrun
  split_ifs at hrun with hrunning
  cases op with
  | call c =>
    obtain rfl := Option.some.inj hrun
    exact perform_watch w.run.node c
  | others f =>
    obtain rfl := Option.some.inj hrun
    exact ⟨rfl, rfl, rfl⟩
  | message answers msg =>
    obtain rfl := Option.some.inj hrun
    exact ⟨rfl, rfl, rfl⟩
  | ready io =>
    obtain rfl := Option.some.inj hrun
    refine onReady_of_no_check ?_
    simpa [checks] using hcheck

/-- What a step with a check does, from the state it starts in. -/
structure CheckStep (w : WatchedRun σ Event S) (a : Observed Command) (io : ReadyIo)
    (w' : WatchedRun σ Event S) : Prop where
  entry : ∀ p, w'.run.node.followerProgress p = if p ∈ reported io w.run.node then none
    else (w.run.node.verdict io p).entry io.now (w.run.node.followerProgress p)
  mem_reported : ∀ p, p ∈ reported io w.run.node ↔
    (w.run.node.verdict io p).fails w.run.node.failureDetectionTimeout io.now
  timeout : w'.run.node.failureDetectionTimeout = w.run.node.failureDetectionTimeout
  history : w'.history = w.visits a
  recordedAt : ∀ p, w'.recordedAt p =
    if (w.run.node.verdict io p).isRecorded then w.position a else w.recordedAt p
  accusations : w'.accusations =
    w.accusations ++ (reported io w.run.node).map (⟨·, w.position a⟩)

theorem step_of_check {w w' : WatchedRun σ Event S} {a : Observed Command} {io : ReadyIo}
    (hcheck : w.checks a = some io) (hs : w.step a = some w')
    (hnodup : (io.progress.map Prod.fst).Nodup) : CheckStep w a io w' := by
  obtain ⟨run, hrun, rfl⟩ := Option.map_eq_some_iff.mp hs
  obtain ⟨op, between, moment⟩ := a
  cases op with
  | ready io' =>
    have hio : (checkedNode io' w.run.node).isSome ∧ io' = io := by
      simpa [checks] using hcheck
    obtain ⟨hsome, rfl⟩ := hio
    obtain ⟨n', hn'⟩ := Option.isSome_iff_exists.mp hsome
    have hnode : run.node = (onReady io' w.run.node).2 := by
      unfold NodeRun.step at hrun
      split_ifs at hrun
      obtain rfl := Option.some.inj hrun
      rfl
    have hchecked := fun p => onReady_checked hn' hnodup p
    constructor
    case entry => exact fun p => hnode ▸ (hchecked p).1
    case mem_reported => exact fun p => (hchecked p).2.1
    case timeout => exact hnode ▸ (hchecked 0).2.2
    case history => rfl
    case recordedAt => simp [hcheck]
    case accusations => simp [hcheck]
  | _ => simp [checks] at hcheck

/-! ## Reports and their justification -/

omit [ProstMessage Message] in
theorem visits_position (w : WatchedRun σ Event S) (a : Observed Command) :
    (w.visits a)[w.position a]? = some ⟨a.moment, (w.checks a).isSome⟩ ∧
      (w.visits a).length = w.position a + 1 := by
  refine ⟨?_, by simp [visits, position]; omega⟩
  rw [visits, ← List.append_assoc, List.getElem?_append_right (by simp [position])]
  simp [position]

/-- Every entry of the table was written by a check, with what it saw, and every report was
justified. -/
structure Accounted (timeout : ℕ) (w : WatchedRun σ Event S) : Prop where
  configured : w.run.node.failureDetectionTimeout = timeout
  entry : ∀ p k t, w.run.node.followerProgress p = some (k, t) →
    ∃ v ∈ w.history[w.recordedAt p]?, v.checked = true ∧ v.moment.time = t ∧
      v.moment.matched p = some k
  justified : ∀ a ∈ w.accusations, a.Justified timeout w.history

omit [ProstMessage Message] in
/-- The check that wrote an entry is still in the history up to a later step. -/
theorem Accounted.entry_visits {w : WatchedRun σ Event S} {timeout p k t : ℕ}
    (hacc : Accounted timeout w) (hentry : w.run.node.followerProgress p = some (k, t))
    (a : Observed Command) :
    w.recordedAt p < w.history.length ∧ ∃ v ∈ (w.visits a)[w.recordedAt p]?,
      v.checked = true ∧ v.moment.time = t ∧ v.moment.matched p = some k := by
  obtain ⟨v, hv, hvisit⟩ := hacc.entry p k t hentry
  have hbefore := (List.getElem?_eq_some_iff.mp hv).1
  refine ⟨hbefore, v, ?_, hvisit⟩
  rw [visits, List.getElem?_append_left hbefore]
  exact hv

omit [ProstMessage Message] in
/-- A stuck peer is reported rightly if its entry is one of the present leadership. -/
theorem justified_of_stuckSince {w : WatchedRun σ Event S} {a : Observed Command} {io : ReadyIo}
    {timeout p t : ℕ} (hacc : Accounted timeout w) (hlaw : w.Lawful a) (hfresh : w.Fresh a)
    (hcheck : w.checks a = some io) (hstuck : w.run.node.verdict io p = .stuckSince t)
    (helapsed : timeout < io.now - t) :
    Accusation.Justified ⟨p, w.position a⟩ timeout (w.visits a) := by
  obtain ⟨m, last, hm, hentry, hbehind, hle⟩ := verdict_stuckSince hstuck
  obtain ⟨hbefore, v₀, hvisit, hchecked, htime, hmatched⟩ := hacc.entry_visits hentry a
  obtain ⟨hnow, hprogress, hcommitted⟩ := hlaw.reads io hcheck
  obtain ⟨hat, hlen⟩ := w.visits_position a
  have hnowmatched : a.moment.matched p = some m := by
    rw [RaftMoment.matched, ← hprogress, hm]
  have hmember : p ∈ a.moment.progress.map Prod.fst := by
    obtain ⟨l₁, l₂, heq, -⟩ := List.lookup_eq_some_iff.mp hnowmatched
    rw [heq]
    simp
  -- the visits from the one that wrote the entry to this one
  have hled : ∀ u ∈ (w.visits a).drop (w.recordedAt p),
      u.moment.leads = true ∧ (u.moment.matched p).isSome :=
    hfresh p hmember (by simp [compares, hcheck, hstuck, Verdict.isStuck])
  have hend : ((w.visits a).drop (w.recordedAt p)).getLast? =
      some ⟨a.moment, (w.checks a).isSome⟩ := by
    rw [List.getLast?_drop, if_neg (by rw [hlen, position]; omega), List.getLast?_eq_getElem?,
      hlen, Nat.add_sub_cancel, hat]
  have hsame := matched_eq_of_leads (List.map_drop ▸ hlaw.moments.drop (w.recordedAt p))
    (List.head?_drop.trans hvisit) hend hled hmatched hnowmatched hle
  have hm' : m = last := by
    have hlast := hsame _ (List.mem_of_getLast? hend)
    rw [hnowmatched] at hlast
    exact Option.some.inj hlast
  refine ⟨w.recordedAt p, ?_, v₀, hvisit, _, hat, hchecked, ?_, m, hnowmatched, ?_, ?_⟩
  · show w.recordedAt p < w.history.length + a.between.length
    omega
  · rwa [htime, ← hnow]
  · rwa [← hcommitted]
  · intro u hu
    rw [← hlen, List.take_length] at hu
    exact ⟨(hled u hu).1, hm' ▸ hsame u hu⟩

omit [ProstMessage Message] in
/-- A check keeps the entry of a peer, or writes one with what it sees. -/
theorem CheckStep.entry_visits {w w' : WatchedRun σ Event S} {a : Observed Command} {io : ReadyIo}
    {timeout p k t : ℕ} (hstep : CheckStep w a io w') (hacc : Accounted timeout w)
    (hlaw : w.Lawful a) (hcheck : w.checks a = some io)
    (hentry : w'.run.node.followerProgress p = some (k, t)) :
    ∃ v ∈ w'.history[w'.recordedAt p]?, v.checked = true ∧ v.moment.time = t ∧
      v.moment.matched p = some k := by
  obtain ⟨hnow, hprogress, -⟩ := hlaw.reads io hcheck
  rw [hstep.entry] at hentry
  split_ifs at hentry with hreported
  rw [hstep.history, hstep.recordedAt]
  cases hverdict : w.run.node.verdict io p with
  | recorded m =>
    rw [hverdict] at hentry
    obtain ⟨rfl, rfl⟩ := Prod.mk.inj (Option.some.inj hentry)
    refine ⟨_, (w.visits_position a).1, by simp [hcheck], hnow.symm, ?_⟩
    rw [RaftMoment.matched, ← hprogress]
    exact verdict_recorded hverdict
  | _ =>
    rw [hverdict] at hentry
    rw [if_neg (by simp [Verdict.isRecorded])]
    exact (hacc.entry_visits hentry a).2

/-- One step keeps the table accounted for and reports only what is justified. -/
theorem step_accounted {w w' : WatchedRun σ Event S} {a : Observed Command} {timeout : ℕ}
    (hacc : Accounted timeout w) (hlaw : w.Lawful a) (hfresh : w.Fresh a)
    (hs : w.step a = some w') : Accounted timeout w' := by
  cases hcheck : w.checks a with
  | none =>
    obtain ⟨hframe, hhistory, hrecorded, haccused⟩ := step_of_no_check hcheck hs
    refine ⟨hframe.failureDetectionTimeout.trans hacc.configured, ?_, ?_⟩
    · intro p k t hentry
      rw [hframe.followerProgress] at hentry
      rw [hhistory, hrecorded]
      exact (hacc.entry_visits hentry a).2
    · intro x hx
      rw [haccused] at hx
      rw [hhistory, visits]
      exact (hacc.justified x hx).append _
  | some io =>
    obtain ⟨-, hprogress, -⟩ := hlaw.reads io hcheck
    have hstep := step_of_check hcheck hs (hprogress ▸ hlaw.members)
    refine ⟨hstep.timeout.trans hacc.configured, ?_, ?_⟩
    · exact fun p k t hentry => hstep.entry_visits hacc hlaw hcheck hentry
    · intro x hx
      rw [hstep.accusations] at hx
      rw [hstep.history]
      rcases List.mem_append.mp hx with hx | hx
      · exact (hacc.justified x hx).append _
      · obtain ⟨p, hp, rfl⟩ := List.mem_map.mp hx
        have hfails := (hstep.mem_reported p).mp hp
        cases hverdict : w.run.node.verdict io p with
        | stuckSince t =>
          rw [hverdict, hacc.configured] at hfails
          exact justified_of_stuckSince hacc hlaw hfresh hcheck hverdict (of_decide_eq_true hfails)
        | _ =>
          rw [hverdict] at hfails
          exact absurd hfails (by simp [Verdict.fails])

/-- A new node, before raft-rs did anything. -/
def start (config : RaftNodeConfig) (peers : Peers) (stateMachine : σ) (confState : ConfState)
    (store : S) (delivered : ℕ) : WatchedRun σ Event S :=
  { run := NodeRun.start config peers stateMachine confState store delivered }

/-- In every run in which no lagging peer is compared with an entry of an earlier leadership or
membership, every report is justified. -/
theorem justified_of_fresh (config : RaftNodeConfig) (peers : Peers) (stateMachine : σ)
    (confState : ConfState) (store : S) (delivered : ℕ) {as : List (Observed Command)}
    {w : WatchedRun σ Event S}
    (hlaw : Transition.Along step Lawful
      (start config peers stateMachine confState store delivered) as)
    (hfresh : Transition.Along step Fresh
      (start config peers stateMachine confState store delivered) as)
    (hrun : Transition.run step (start config peers stateMachine confState store delivered) as =
      some w) :
    ∀ a ∈ w.accusations, a.Justified config.failureDetectionTimeout w.history := by
  have hstart : Accounted config.failureDetectionTimeout
      (start config peers stateMachine confState store delivered : WatchedRun σ Event S) :=
    ⟨rfl, fun p k t h => by simp [start, NodeRun.start, newWithConfState] at h, by simp [start]⟩
  refine (Transition.run_induction (I := Accounted config.failureDetectionTimeout) ?_ hstart
    (hlaw.and hfresh) hrun).justified
  intro w a w' hacc hcond hs
  exact step_accounted hacc hcond.1 hcond.2 hs

omit [ProstMessage Message] in
instance (w : WatchedRun σ Event S) (a : Observed Command) : Decidable (w.Lawful a) :=
  decidable_of_iff
    (((w.visits a).map Visit.moment).IsChain (RaftMoment.Precedes w.run.node.nodeId) ∧
      (a.moment.progress.map Prod.fst).Nodup ∧
      ∀ io ∈ w.checks a, io.now = a.moment.time ∧ io.progress = a.moment.progress ∧
        io.raftCommitted = a.moment.committed)
    ⟨fun h => ⟨h.1, h.2.1, h.2.2⟩, fun h => ⟨h.moments, h.members, h.reads⟩⟩

omit [ProstMessage Message] in
instance (w : WatchedRun σ Event S) (a : Observed Command) : Decidable (w.Fresh a) :=
  inferInstanceAs (Decidable (∀ p ∈ a.moment.progress.map Prod.fst, w.compares a p →
    ∀ u ∈ (w.visits a).drop (w.recordedAt p), u.moment.leads = true ∧
      (u.moment.matched p).isSome))

end

section
open scoped Codec

/-- Node 1 with a timeout of ten. -/
def watchingNode : WatchedRun KvStateMachine KvEvent RocksDBStorage :=
  start { failureDetectionTimeout := 10 } (fun _ => none) {} { voters := [1, 2] } ⟨{}, 1, 0⟩ 0

/-- A ready of a node in a role, taken at a moment. -/
def observeReady (raftState : StateRole) (moment : RaftMoment) : Observed KvCommand where
  op := .ready
    { ready := { ss := some { leaderId := 1, raftState } }
      applyConfChange := fun _ => .error "no configuration change"
      now := moment.time
      progress := moment.progress
      raftCommitted := moment.committed }
  moment

/-- Peer 2 stops answering under a leader that goes on. -/
def stalledPeer : List (Observed KvCommand) :=
  [observeReady .leader ⟨0, true, [(1, 5), (2, 5)], 5⟩,
   observeReady .leader ⟨20, true, [(1, 7), (2, 5)], 7⟩]

/-- The node loses the leadership and wins it again; peer 2 is up to date and has not answered
the new leader yet. -/
def regainedLeadership : List (Observed KvCommand) :=
  [observeReady .leader ⟨0, true, [(1, 5), (2, 5)], 5⟩,
   observeReady .follower ⟨1, false, [(1, 5), (2, 5)], 5⟩,
   observeReady .leader ⟨20, true, [(1, 6), (2, 0)], 5⟩]

theorem justified_of_stalledPeer :
    ∃ w ∈ Transition.run step watchingNode stalledPeer, w.accusations = [⟨2, 1⟩] ∧
      ∀ a ∈ w.accusations, a.Justified 10 w.history := by
  obtain ⟨w, hw, haccused⟩ : ∃ w ∈ Transition.run step watchingNode stalledPeer,
      w.accusations = [⟨2, 1⟩] := by decide
  refine ⟨w, hw, haccused, ?_⟩
  exact justified_of_fresh { failureDetectionTimeout := 10 } (fun _ => none) {} { voters := [1, 2] }
    ⟨{}, 1, 0⟩ 0 (by decide) (by decide) hw

theorem not_justified_of_regainedLeadership :
    Transition.Along step Lawful watchingNode regainedLeadership ∧
      ∃ w ∈ Transition.run step watchingNode regainedLeadership, w.accusations = [⟨2, 2⟩] ∧
        ¬ Accusation.Justified ⟨2, 2⟩ 10 w.history := by decide

end

end WatchedRun

end Raftoral
