import Raftoral.Lib.Word

/-!
# The protobuf wire format

Base-128 varints, the two field kinds a flat message needs (varint and length-delimited,
both omitted at their default) and packed lists of varints, each with the reader that
inverts it. A reader takes one field off the front of a message whose fields stand in
ascending order; `Above tag` is the side condition that what follows belongs to a larger
field, so that an omitted field is recognised as omitted.
-/

namespace Wire

/-! ## Varints -/

/-- Seven bits a byte, least significant first, with the top bit set on all but the last. -/
def varintLoop : ℕ → ℕ → Bytes
  | 0, n => [UInt8.ofNat n]
  | fuel + 1, n =>
    if n < 128 then [UInt8.ofNat n]
    else UInt8.ofNat (n % 128 + 128) :: varintLoop fuel (n / 128)

/-- The varint of a number. -/
def varint (n : ℕ) : Bytes := varintLoop n n

/-- Take a varint off the front. -/
def readVarint : Bytes → Option (ℕ × Bytes)
  | [] => none
  | b :: rest =>
    if b.toNat < 128 then some (b.toNat, rest)
    else (readVarint rest).map fun p => (b.toNat - 128 + 128 * p.1, p.2)

theorem readVarint_varintLoop {fuel n : ℕ} (h : n ≤ fuel) (rest : Bytes) :
    readVarint (varintLoop fuel n ++ rest) = some (n, rest) := by
  induction fuel generalizing n with
  | zero =>
    obtain rfl : n = 0 := by omega
    rfl
  | succ fuel ih =>
    unfold varintLoop
    by_cases hn : n < 128
    · have hb : (UInt8.ofNat n).toNat = n := by
        rw [UInt8.toNat_ofNat']
        omega
      rw [if_pos hn, List.singleton_append, readVarint, hb, if_pos hn]
    · have hb : (UInt8.ofNat (n % 128 + 128)).toNat = n % 128 + 128 := by
        rw [UInt8.toNat_ofNat']
        omega
      rw [if_neg hn, List.cons_append, readVarint, hb, if_neg (by omega), ih (by omega)]
      simp only [Option.map_some, Option.some.injEq, Prod.mk.injEq, and_true]
      omega

@[simp] theorem readVarint_varint (n : ℕ) (rest : Bytes) :
    readVarint (varint n ++ rest) = some (n, rest) := readVarint_varintLoop le_rfl rest

theorem varint_ne_nil (n : ℕ) : varint n ≠ [] := by
  intro h
  have hread := readVarint_varint n []
  rw [h] at hread
  exact absurd hread (by simp [readVarint])

/-! ## Packed lists -/

/-- The varints of a list, one after the other. -/
def packed (ns : List ℕ) : Bytes := ns.flatMap varint

/-- Read varints until the bytes run out; every varint takes a byte, so the number of
bytes is enough fuel. -/
def readPackedLoop : ℕ → Bytes → Option (List ℕ)
  | _, [] => some []
  | 0, _ :: _ => none
  | fuel + 1, b :: rest =>
    (readVarint (b :: rest)).bind fun p => (readPackedLoop fuel p.2).map (p.1 :: ·)

def readPacked (b : Bytes) : Option (List ℕ) := readPackedLoop b.length b

theorem length_le_packed (ns : List ℕ) : ns.length ≤ (packed ns).length := by
  induction ns with
  | nil => rfl
  | cons n ns ih =>
    have hpos : 0 < (varint n).length := List.length_pos_iff.mpr (varint_ne_nil n)
    simp only [packed, List.flatMap_cons, List.length_append, List.length_cons] at ih ⊢
    omega

theorem readPackedLoop_packed {fuel : ℕ} {ns : List ℕ} (h : ns.length ≤ fuel) :
    readPackedLoop fuel (packed ns) = some ns := by
  induction ns generalizing fuel with
  | nil => cases fuel <;> rfl
  | cons n ns ih =>
    obtain ⟨fuel, rfl⟩ : ∃ k, fuel = k + 1 := ⟨fuel - 1, by simp at h; omega⟩
    obtain ⟨b, bs, hb⟩ := List.exists_cons_of_ne_nil (varint_ne_nil n)
    have hread := readVarint_varint n (packed ns)
    rw [hb, List.cons_append] at hread
    have hih : readPackedLoop fuel (packed ns) = some ns := ih (by simpa using h)
    have hcons : packed (n :: ns) = b :: (bs ++ packed ns) := by
      rw [packed, List.flatMap_cons, hb, List.cons_append]
      rfl
    rw [hcons, readPackedLoop, hread, Option.bind_some, hih, Option.map_some]

@[simp] theorem readPacked_packed (ns : List ℕ) : readPacked (packed ns) = some ns :=
  readPackedLoop_packed (length_le_packed ns)

/-! ## Fields -/

/-- A varint field, omitted when zero. -/
def uintField (tag : UInt8) (n : ℕ) : Bytes := if n = 0 then [] else tag :: varint n

/-- A length-delimited field, omitted when empty. -/
def bytesField (tag : UInt8) (b : Bytes) : Bytes :=
  if b = [] then [] else tag :: (varint b.length ++ b)

/-- Take a varint field off the front; an omitted one is zero. -/
def readUint (tag : UInt8) : Bytes → Option (ℕ × Bytes)
  | [] => some (0, [])
  | b :: rest => if b = tag then readVarint rest else some (0, b :: rest)

/-- Take a length-delimited field off the front; an omitted one is empty. -/
def readBytes (tag : UInt8) : Bytes → Option (Bytes × Bytes)
  | [] => some ([], [])
  | b :: rest =>
    if b = tag then
      (readVarint rest).bind fun p =>
        if p.1 ≤ p.2.length then some (p.2.take p.1, p.2.drop p.1) else none
    else some ([], b :: rest)

/-- What follows does not start with the tag or a smaller one. -/
def Above (tag : UInt8) (b : Bytes) : Prop := ∀ x ∈ b.head?, tag < x

@[simp] theorem above_nil (tag : UInt8) : Above tag [] := by
  intro x hx
  simp at hx

@[simp] theorem above_cons {tag x : UInt8} {b : Bytes} : Above tag (x :: b) ↔ tag < x := by
  simp [Above]

theorem ne_of_above {tag x : UInt8} {b : Bytes} (h : Above tag (x :: b)) : x ≠ tag := by
  intro hx
  subst hx
  exact UInt8.lt_irrefl x (above_cons.mp h)

@[simp] theorem above_uintField {tag t : UInt8} {n : ℕ} {rest : Bytes} (ht : tag < t) :
    Above tag (uintField t n ++ rest) ↔ (n = 0 → Above tag rest) := by
  unfold uintField
  by_cases hn : n = 0
  · simp [hn]
  · simp [hn, ht]

@[simp] theorem above_bytesField {tag t : UInt8} {b rest : Bytes} (ht : tag < t) :
    Above tag (bytesField t b ++ rest) ↔ (b = [] → Above tag rest) := by
  unfold bytesField
  by_cases hb : b = []
  · simp [hb]
  · simp [hb, ht]

@[simp] theorem readUint_uintField {tag : UInt8} {n : ℕ} {rest : Bytes} (h : Above tag rest) :
    readUint tag (uintField tag n ++ rest) = some (n, rest) := by
  unfold uintField
  by_cases hn : n = 0
  · subst hn
    cases rest with
    | nil => rfl
    | cons x rest =>
      have hx : x ≠ tag := ne_of_above h
      rw [if_pos rfl, List.nil_append, readUint, if_neg hx]
  · rw [if_neg hn, List.cons_append, readUint, if_pos rfl, readVarint_varint]

@[simp] theorem readBytes_bytesField {tag : UInt8} {b rest : Bytes} (h : Above tag rest) :
    readBytes tag (bytesField tag b ++ rest) = some (b, rest) := by
  unfold bytesField
  by_cases hb : b = []
  · subst hb
    cases rest with
    | nil => rfl
    | cons x rest =>
      have hx : x ≠ tag := ne_of_above h
      rw [if_pos rfl, List.nil_append, readBytes, if_neg hx]
  · rw [if_neg hb, List.cons_append, readBytes, if_pos rfl, List.append_assoc,
      readVarint_varint, Option.bind_some, if_pos (by simp), List.take_left, List.drop_left]

/-! The last field of a message. -/

@[simp] theorem above_uintField_last {tag t : UInt8} {n : ℕ} (ht : tag < t) :
    Above tag (uintField t n) := by
  have h := (above_uintField ht (n := n)).mpr fun _ => above_nil tag
  rwa [List.append_nil] at h

@[simp] theorem above_bytesField_last {tag t : UInt8} {b : Bytes} (ht : tag < t) :
    Above tag (bytesField t b) := by
  have h := (above_bytesField ht (b := b)).mpr fun _ => above_nil tag
  rwa [List.append_nil] at h

@[simp] theorem readUint_uintField_last (tag : UInt8) (n : ℕ) :
    readUint tag (uintField tag n) = some (n, []) := by
  simpa using readUint_uintField (n := n) (above_nil tag)

@[simp] theorem readBytes_bytesField_last (tag : UInt8) (b : Bytes) :
    readBytes tag (bytesField tag b) = some (b, []) := by
  simpa using readBytes_bytesField (b := b) (above_nil tag)

end Wire
