import Raftoral.Lib.Budget
import Raftoral.Raft.StoragePath

/-!
# Reading with a size limit

`entries` reads a range of the log up to a total encoded size, but at least one entry. Its loop
counts the bytes taken so far and takes zero bytes to mean that nothing was taken yet. Every
record of a storage lies under the index of its entry, so an entry behind index zero is not a
default message, its encoding is not empty, and the loop reads the longest prefix that fits.
-/

namespace Raftoral

open ProstMessage Budget

section
variable [ProstMessage Entry]

/-- The entries that are stored from an index on. -/
structure StoredFrom (s : RocksDBStorage) (low : ℕ) (es : List Entry) : Prop where
  indices : es.map (·.index) = List.range' low es.length
  record : ∀ e ∈ es, s.db.entries e.index = some (encodeToVec e)

variable {s : RocksDBStorage} {low : ℕ} {es : List Entry}

theorem StoredFrom.cons {e : Entry} :
    StoredFrom s low (e :: es) ↔ e.index = low ∧ s.db.entries low = some (encodeToVec e) ∧
      StoredFrom s (low + 1) es := by
  constructor
  · rintro ⟨hindices, hrecord⟩
    rw [List.map_cons, List.length_cons, List.range'_succ, List.cons.injEq] at hindices
    have he := hrecord e List.mem_cons_self
    rw [hindices.1] at he
    exact ⟨hindices.1, he, hindices.2, fun x hx => hrecord x (List.mem_cons_of_mem e hx)⟩
  · rintro ⟨he, hstored, hindices, hrecord⟩
    refine ⟨?_, fun x hx => ?_⟩
    · rw [List.map_cons, List.length_cons, List.range'_succ, he, hindices]
    · rcases List.mem_cons.mp hx with rfl | hx
      · rw [he]
        exact hstored
      · exact hrecord x hx

/-- Where every index of a range has a record, the records are those of consecutive entries. -/
theorem exists_storedFrom
    (hkeyed : ∀ i bytes, s.db.entries i = some bytes →
      ∃ e : Entry, e.index = i ∧ bytes = encodeToVec e)
    (low n : ℕ) (h : ∀ i, low ≤ i → i < low + n → (s.db.entries i).isSome) :
    ∃ es : List Entry, es.length = n ∧ StoredFrom s low es := by
  induction n generalizing low with
  | zero => exact ⟨[], rfl, rfl, by simp⟩
  | succ n ih =>
    obtain ⟨bytes, hbytes⟩ := Option.isSome_iff_exists.mp (h low (Nat.le_refl _) (by omega))
    obtain ⟨e, he, rfl⟩ := hkeyed low bytes hbytes
    obtain ⟨es, hlen, hstored⟩ := ih (low + 1) fun i hlo hhi => h i (by omega) (by omega)
    exact ⟨e :: es, by rw [List.length_cons, hlen], StoredFrom.cons.mpr ⟨he, hbytes, hstored⟩⟩

/-- The reading loop is the loop that takes what is within the limit. -/
theorem StoredFrom.entriesLoop (h : StoredFrom s low es) (maxSize : Option ℕ) {taken : ℕ}
    (hsize : taken + total encodedLen es < U64.size) :
    s.entriesLoop maxSize es.length low taken = .ok (takeWithin encodedLen maxSize taken es) := by
  induction es generalizing low taken with
  | nil => rfl
  | cons e es ih =>
    obtain ⟨-, hrecord, hrest⟩ := StoredFrom.cons.mp h
    rw [total_cons] at hsize
    have hadd : U64.add taken (encodedLen e) = taken + encodedLen e := U64.add_of_lt (by omega)
    have hload : s.loadEntry low = .ok (some e) := by
      rw [RocksDBStorage.loadEntry, hrecord]
      simp [Except.map, Except.mapError]
    have hnext : s.entriesLoop maxSize es.length (low + 1) (taken + encodedLen e) =
        .ok (takeWithin encodedLen maxSize (taken + encodedLen e) es) := ih hrest (by omega)
    rw [List.length_cons, RocksDBStorage.entriesLoop, hload, takeWithin]
    simp only [hadd, hnext]
    cases maxSize with
    | none => simp [Within, Except.map]
    | some max =>
      by_cases hover : 0 < taken ∧ max < taken + encodedLen e
      · have hnot : 0 < taken ∧ ¬ Within (some max) (taken + encodedLen e) :=
          ⟨hover.1, fun hwithin => absurd (hwithin max rfl) (by omega)⟩
        simp [hover, hnot]
      · have hnot : ¬ (0 < taken ∧ ¬ Within (some max) (taken + encodedLen e)) := by
          rintro ⟨hpos, hnot⟩
          refine hnot fun m hm => ?_
          rw [Option.mem_some_iff] at hm
          omega
        simp [hover, hnot, Except.map]

/-- Only a default message has an empty encoding. -/
theorem encodedLen_pos (hempty : encodeToVec ({} : Entry) = []) {e : Entry} (he : e.index ≠ 0) :
    0 < encodedLen e := by
  rw [encodedLen, List.length_pos_iff]
  intro hnil
  have hdecode := decode_encodeToVec e
  rw [hnil, ← hempty, decode_encodeToVec, Except.ok.injEq] at hdecode
  rw [← hdecode] at he
  exact he rfl

end

section
variable [ProstMessage Entry] [ProstMessage HardState] [ProstMessage ConfState]
  [ProstMessage Snapshot]
variable {nodeId : ℕ} {s : RocksDBStorage}

/-- A read of a stored range returns the longest beginning of it that is one entry or is within
the size limit: never nothing, all of it without a limit, and no less under a larger one. -/
theorem entries_longest_prefix (hempty : encodeToVec ({} : Entry) = []) (hn : nodeId < U64.size)
    (hs : Reached nodeId s) {low high : ℕ} (hpos : 1 ≤ low) (hlt : low < high)
    (hfirst : s.firstIndexCache ≤ low) (hlast : high ≤ s.lastIndexCache + 1)
    (hstored : ∀ i, low ≤ i → i < high → (s.db.entries i).isSome) :
    ∃ es : List Entry, es.length = high - low ∧ StoredFrom s low es ∧
      (total encodedLen es < U64.size → ∀ maxSize, ∃ taken,
        s.entries low high maxSize = .ok taken ∧ LongestFit encodedLen maxSize es taken ∧
        taken ≠ [] ∧ taken.map (·.index) = List.range' low taken.length ∧
        (maxSize = none → taken = es) ∧
        ∀ larger taken', LimitLE maxSize larger → s.entries low high larger = .ok taken' →
          taken <+: taken') := by
  have huse := hs.inUse hn
  have hroom := huse.room
  have hadd : U64.add s.lastIndexCache 1 = s.lastIndexCache + 1 := U64.add_of_lt hroom
  obtain ⟨es, hlen, hfrom⟩ := exists_storedFrom huse.owned.sound.keyed low (high - low)
    fun i hlo hhi => hstored i hlo (by omega)
  refine ⟨es, hlen, hfrom, fun hsize => ?_⟩
  have hne : es ≠ [] := by
    rw [← List.length_pos_iff]
    omega
  -- the loop of the source is the one of the library over the stored entries
  have hread : ∀ maxSize,
      s.entries low high maxSize = .ok (takeWithin encodedLen maxSize 0 es) := by
    intro maxSize
    rw [RocksDBStorage.entries, if_neg (by omega), if_neg (by omega), hadd, if_neg (by omega),
      ← hlen]
    exact hfrom.entriesLoop maxSize (by omega)
  have hfit : ∀ maxSize, LongestFit encodedLen maxSize es (takeWithin encodedLen maxSize 0 es) := by
    intro maxSize
    -- no stored entry is of size 0, since its index is not
    refine longestFit_takeWithin maxSize hne fun e he => encodedLen_pos hempty ?_
    have hindex : e.index ∈ List.range' low es.length := by
      rw [← hfrom.indices]
      exact List.mem_map_of_mem he
    rw [List.mem_range'_1] at hindex
    omega
  intro maxSize
  refine ⟨_, hread maxSize, hfit maxSize, takeWithin_ne_nil hne, ?_, ?_, ?_⟩
  · -- the indices of a beginning are those of the range, cut
    obtain ⟨rest, hrest⟩ := (hfit maxSize).start
    set taken := takeWithin encodedLen maxSize 0 es with htaken
    have hindices := congrArg (List.take taken.length) hfrom.indices
    have hle : taken.length ≤ es.length := (hfit maxSize).start.length_le
    rw [List.take_range'_of_length_ge hle, ← hrest, List.map_append, List.take_left'
      (by rw [List.length_map])] at hindices
    exact hindices
  · rintro rfl
    exact (hfit none).eq_of_none
  · intro larger taken' hle htaken'
    rw [hread larger, Except.ok.injEq] at htaken'
    rw [← htaken']
    exact (hfit maxSize).mono (hfit larger) hle

end

section
open Codec

set_option maxRecDepth 4000 in
/-- Three entries of nine bytes each: two of them are within a limit of twenty. -/
theorem entries_longest_prefix_two_of_three :
    ∃ s, Reached 1 s ∧
      s.entries 1 4 (some 20) = .ok [{ term := 1, index := 1, data := [7, 7, 7] },
        { term := 1, index := 2, data := [8, 8, 8] }] ∧
      ∃ es : List Entry, es.length = 3 ∧ StoredFrom s 1 es ∧
        LongestFit encodedLen (some 20) es [{ term := 1, index := 1, data := [7, 7, 7] },
          { term := 1, index := 2, data := [8, 8, 8] }] := by
  have hreached : Reached 1 _ := ⟨[.openOrCreate .none { voters := [1] },
    .call (.append [{ term := 1, index := 1, data := [7, 7, 7] },
      { term := 1, index := 2, data := [8, 8, 8] },
      { term := 1, index := 3, data := [9, 9, 9] }]) .none], by decide, rfl⟩
  obtain ⟨es, hlen, hfrom, hread⟩ := entries_longest_prefix rfl (by decide) hreached
    (Nat.le_refl 1) (by decide : 1 < 4) (Nat.le_refl 1) (Nat.le_refl 4) fun i hlo hhi => by
      obtain rfl | rfl | rfl : i = 1 ∨ i = 2 ∨ i = 3 := by omega
      all_goals rfl
  refine ⟨_, hreached, rfl, es, hlen, hfrom, ?_⟩
  -- the sizes are those of the records
  have hsize : total encodedLen es < U64.size := by
    obtain ⟨a, b, c, rfl⟩ := List.length_eq_three.mp hlen
    obtain ⟨-, ha, hfrom⟩ := StoredFrom.cons.mp hfrom
    obtain ⟨-, hb, hfrom⟩ := StoredFrom.cons.mp hfrom
    obtain ⟨-, hc, -⟩ := StoredFrom.cons.mp hfrom
    have ha' : encodedLen a = 9 := (congrArg List.length (Option.some.inj ha)).symm.trans rfl
    have hb' : encodedLen b = 9 := (congrArg List.length (Option.some.inj hb)).symm.trans rfl
    have hc' : encodedLen c = 9 := (congrArg List.length (Option.some.inj hc)).symm.trans rfl
    simp only [total_cons, total_nil, ha', hb', hc']
    decide
  obtain ⟨taken, htaken, hfit, -⟩ := hread hsize (some 20)
  rw [← Except.ok.inj htaken] at hfit
  exact hfit

end

end Raftoral
