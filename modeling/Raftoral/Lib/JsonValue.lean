import Raftoral.Lib.Json

/-!
# JSON values

The values of JSON as a tree, their text, and the reader that inverts it. Numbers are kept as
they are written. `textSize` counts the bytes of the strings and keys in a value: they stand in
the text of the value, so a text is longer than the strings it holds (`textSize_le_of_parse`).
The text is ASCII.
-/

namespace Json

/-- The UTF-8 encoding of a string. -/
def utf8 (s : String) : Bytes := s.toList.flatMap String.utf8EncodeChar

/-- The bytes of a number. -/
def isNumberByte (b : UInt8) : Bool :=
  (0x30 ≤ b.toNat && b.toNat < 0x3a) || b == 0x2b || b == 0x2d || b == 0x2e || b == 0x45 || b == 0x65

/-- A number as it is written. -/
structure Number where
  literal : Bytes
  ne_nil : literal ≠ []
  bytes : ∀ b ∈ literal, isNumberByte b = true

inductive Value where
  | null
  | bool (b : Bool)
  | number (n : Number)
  | string (s : String)
  | array (values : List Value)
  | object (fields : List (String × Value))

/-- The texts of the items behind the first, and the bracket that closes the list. -/
def following (closing : UInt8) : List Bytes → Bytes
  | [] => [closing]
  | text :: texts => 0x2c :: (text ++ following closing texts)

def enclosed (closing : UInt8) : List Bytes → Bytes
  | [] => [closing]
  | text :: texts => text ++ following closing texts

namespace Value

mutual

/-- The bytes of the strings and keys in a value. -/
def textSize : Value → ℕ
  | .null | .bool _ | .number _ => 0
  | .string s => (utf8 s).length
  | .array values => textSizes values
  | .object fields => fieldSizes fields

def textSizes : List Value → ℕ
  | [] => 0
  | v :: values => v.textSize + textSizes values

def fieldSizes : List (String × Value) → ℕ
  | [] => 0
  | (key, v) :: fields => (utf8 key).length + v.textSize + fieldSizes fields

end

mutual

/-- The text of a value. -/
def print : Value → Bytes
  | .null => [0x6e, 0x75, 0x6c, 0x6c]
  | .bool true => [0x74, 0x72, 0x75, 0x65]
  | .bool false => [0x66, 0x61, 0x6c, 0x73, 0x65]
  | .number n => n.literal
  | .string s => quote s
  | .array values => 0x5b :: enclosed 0x5d (printValues values)
  | .object fields => 0x7b :: enclosed 0x7d (printFields fields)

def printValues : List Value → List Bytes
  | [] => []
  | v :: values => v.print :: printValues values

def printFields : List (String × Value) → List Bytes
  | [] => []
  | (key, v) :: fields => (quote key ++ 0x3a :: v.print) :: printFields fields

end

theorem printValues_eq_map (values : List Value) : printValues values = values.map print := by
  induction values with
  | nil => rfl
  | cons v values ih => rw [printValues, ih, List.map_cons]

/-- The text of a field. -/
def printField (field : String × Value) : Bytes := quote field.1 ++ 0x3a :: field.2.print

theorem printFields_eq_map (fields : List (String × Value)) :
    printFields fields = fields.map printField := by
  induction fields with
  | nil => rfl
  | cons field fields ih => rw [printFields, ih, List.map_cons, printField]

end Value

/-! ## Reading -/

section
variable {α : Type}

/-- Read the items behind the first, up to the closing bracket. -/
def readMany (read : Bytes → Option (α × Bytes)) (closing : UInt8) :
    ℕ → Bytes → Option (List α × Bytes)
  | 0, _ => none
  | _ + 1, [] => none
  | fuel + 1, c :: b =>
    if c = closing then some ([], b)
    else if c = 0x2c then
      (read b).bind fun p => (readMany read closing fuel p.2).map fun q => (p.1 :: q.1, q.2)
    else none

/-- Read items up to the closing bracket. Every further item takes a byte at least. -/
def readItems (read : Bytes → Option (α × Bytes)) (closing : UInt8) :
    Bytes → Option (List α × Bytes)
  | [] => none
  | c :: b =>
    if c = closing then some ([], b)
    else (read (c :: b)).bind fun p =>
      (readMany read closing p.2.length p.2).map fun q => (p.1 :: q.1, q.2)

/-- Read a quoted string. What is not ASCII stands escaped in a text, so no string is longer than
its text. -/
def readString (b : Bytes) : Option (String × Bytes) :=
  (readQuoted b).filter fun p => (utf8 p.1).length + p.2.length ≤ b.length

/-- Read a key and what stands behind it. -/
def readField (read : Bytes → Option (α × Bytes)) (b : Bytes) : Option ((String × α) × Bytes) :=
  (readString b).bind fun p => (expect [0x3a] p.2).bind fun rest =>
    (read rest).map fun q => ((p.1, q.1), q.2)

end

def readNumber (b : Bytes) : Option (Number × Bytes) :=
  if h : b.takeWhile isNumberByte ≠ [] then
    some (⟨b.takeWhile isNumberByte, h, fun b hb => List.all_eq_true.mp List.all_takeWhile b hb⟩,
      b.dropWhile isNumberByte)
  else none

/-- Read a word. -/
def readWord (word : Bytes) (v : Value) (b : Bytes) : Option (Value × Bytes) :=
  (expect word b).map (v, ·)

/-- Read a value; every bracket takes a byte at least. -/
def readValue : ℕ → Bytes → Option (Value × Bytes)
  | 0, _ => none
  | _ + 1, [] => none
  | fuel + 1, c :: rest =>
    if c = 0x22 then (readString (c :: rest)).map fun p => (.string p.1, p.2)
    else if c = 0x5b then
      (readItems (readValue fuel) 0x5d rest).map fun p => (.array p.1, p.2)
    else if c = 0x7b then
      (readItems (readField (readValue fuel)) 0x7d rest).map fun p => (.object p.1, p.2)
    else if isNumberByte c then (readNumber (c :: rest)).map fun p => (.number p.1, p.2)
    else if c = 0x6e then readWord (Value.print .null) .null (c :: rest)
    else if c = 0x74 then readWord (Value.print (.bool true)) (.bool true) (c :: rest)
    else readWord (Value.print (.bool false)) (.bool false) (c :: rest)

/-- Read a text to its end. -/
def parse (b : Bytes) : Option Value :=
  match readValue b.length b with
  | some (v, []) => some v
  | _ => none

/-! ## Reading back what was written -/

/-- A number ends here. -/
def Ends (rest : Bytes) : Prop := ∀ b ∈ rest.head?, isNumberByte b = false

theorem ends_cons {b : UInt8} (h : isNumberByte b = false) (rest : Bytes) : Ends (b :: rest) := by
  intro c hc
  obtain rfl : b = c := Option.some.inj hc
  exact h

theorem length_utf8_le_quote (s : String) : (utf8 s).length ≤ (quote s).length := by
  have hchar : ∀ c : Char, (String.utf8EncodeChar c).length ≤ (escapeChar c).length := by
    intro c
    rw [String.length_utf8EncodeChar]
    unfold escapeChar
    split_ifs with hplain
    · have hlt : c.toNat < 0x7f := by
        simp only [isPlain, Bool.and_eq_true, decide_eq_true_eq] at hplain
        omega
      have hval : c.val ≤ 0x7f := UInt32.le_iff_toNat_le.mpr (Nat.le_of_lt hlt)
      rw [Char.utf8Size]
      simp [hval]
    all_goals
      have := c.utf8Size_le_four
      simp [escapeUnit]
      omega
  have hall : ∀ cs : List Char, (cs.flatMap String.utf8EncodeChar).length ≤
      (cs.flatMap escapeChar).length := by
    intro cs
    induction cs with
    | nil => exact Nat.le_refl 0
    | cons c cs ih =>
      have := hchar c
      rw [List.flatMap_cons, List.flatMap_cons, List.length_append, List.length_append]
      omega
  have := hall s.toList
  rw [utf8, quote, List.length_cons, List.length_append]
  omega

theorem readString_quote (s : String) (rest : Bytes) :
    readString (quote s ++ rest) = some (s, rest) := by
  have hle := length_utf8_le_quote s
  rw [readString, readQuoted_quote, Option.filter_some, if_pos]
  rw [decide_eq_true_eq]
  show (utf8 s).length + rest.length ≤ _
  rw [List.length_append]
  omega

theorem readNumber_literal (n : Number) {rest : Bytes} (h : Ends rest) :
    readNumber (n.literal ++ rest) = some (n, rest) := by
  have hstop : rest.takeWhile isNumberByte = [] ∧ rest.dropWhile isNumberByte = rest := by
    cases rest with
    | nil => exact ⟨rfl, rfl⟩
    | cons b rest => simp [h b rfl]
  have htake : (n.literal ++ rest).takeWhile isNumberByte = n.literal := by
    rw [List.takeWhile_append_of_pos n.bytes, hstop.1, List.append_nil]
  have hdrop : (n.literal ++ rest).dropWhile isNumberByte = rest := by
    rw [List.dropWhile_append_of_pos n.bytes, hstop.2]
  rw [readNumber, dif_pos (by rw [htake]; exact n.ne_nil)]
  simp only [htake, hdrop]

section
variable {α : Type} {read : Bytes → Option (α × Bytes)} {write : α → Bytes} {closing : UInt8}

theorem ends_following (hends : isNumberByte closing = false) (texts : List Bytes) (rest : Bytes) :
    Ends (following closing texts ++ rest) := by
  cases texts with
  | nil => exact ends_cons hends rest
  | cons text texts => exact ends_cons (by decide) _

variable (closing) in
theorem length_lt_following (texts : List Bytes) :
    texts.length < (following closing texts).length ∧
      ∀ text ∈ texts, text.length < (following closing texts).length := by
  induction texts with
  | nil => simp [following]
  | cons text texts ih =>
    simp only [following, List.length_cons, List.length_append, List.forall_mem_cons]
    refine ⟨by omega, by omega, ?_⟩
    intro t ht
    have := ih.2 t ht
    omega

variable (closing) in
theorem length_lt_enclosed {texts : List Bytes} {text : Bytes} (h : text ∈ texts) :
    text.length < (enclosed closing texts).length := by
  cases texts with
  | nil => exact absurd h List.not_mem_nil
  | cons t texts =>
    obtain ⟨hlen, hlt⟩ := length_lt_following closing texts
    rw [enclosed, List.length_append]
    rcases List.mem_cons.mp h with rfl | h
    · omega
    · have := hlt text h
      omega

theorem readMany_following (hcomma : closing ≠ 0x2c) (hends : isNumberByte closing = false)
    {xs : List α} (hread : ∀ x ∈ xs, ∀ rest, Ends rest → read (write x ++ rest) = some (x, rest))
    {fuel : ℕ} (hfuel : xs.length < fuel) (rest : Bytes) :
    readMany read closing fuel (following closing (xs.map write) ++ rest) = some (xs, rest) := by
  induction xs generalizing fuel with
  | nil =>
    obtain ⟨fuel, rfl⟩ := Nat.exists_eq_succ_of_ne_zero (Nat.ne_of_gt hfuel)
    exact if_pos rfl
  | cons x xs ih =>
    obtain ⟨fuel, rfl⟩ := Nat.exists_eq_succ_of_ne_zero (Nat.ne_of_gt (Nat.zero_lt_of_lt hfuel))
    rw [List.map_cons, following, List.cons_append, List.append_assoc, readMany,
      if_neg hcomma.symm, if_pos rfl,
      hread x List.mem_cons_self _ (ends_following hends _ rest), Option.bind_some,
      ih (fun y hy => hread y (List.mem_cons_of_mem x hy)) (Nat.lt_of_succ_lt_succ hfuel),
      Option.map_some]

theorem readItems_enclosed (hcomma : closing ≠ 0x2c) (hends : isNumberByte closing = false)
    {xs : List α} (hopens : ∀ x ∈ xs, ∃ c text, write x = c :: text ∧ c ≠ closing)
    (hread : ∀ x ∈ xs, ∀ rest, Ends rest → read (write x ++ rest) = some (x, rest)) (rest : Bytes) :
    readItems read closing (enclosed closing (xs.map write) ++ rest) = some (xs, rest) := by
  cases xs with
  | nil => exact if_pos rfl
  | cons x xs =>
    obtain ⟨c, text, htext, hc⟩ := hopens x List.mem_cons_self
    have hx := hread x List.mem_cons_self _ (ends_following hends (xs.map write) rest)
    have hlen := (length_lt_following closing (xs.map write)).1
    rw [List.length_map] at hlen
    rw [List.map_cons, enclosed, List.append_assoc]
    rw [htext, List.cons_append] at hx ⊢
    rw [readItems, if_neg hc, hx, Option.bind_some,
      readMany_following hcomma hends (fun y hy => hread y (List.mem_cons_of_mem x hy))
        (by rw [List.length_append]; omega), Option.map_some]

end

/-- No value starts like the end of a list. -/
theorem Value.print_opens (v : Value) : ∃ c text, v.print = c :: text ∧ c ≠ 0x5d := by
  cases v with
  | null => exact ⟨_, _, rfl, by decide⟩
  | bool b => cases b <;> exact ⟨_, _, rfl, by decide⟩
  | number n =>
    obtain ⟨c, text, htext⟩ := List.exists_cons_of_ne_nil n.ne_nil
    refine ⟨c, text, htext, ?_⟩
    rintro rfl
    exact absurd (n.bytes _ (htext ▸ List.mem_cons_self)) (by decide)
  | string s => exact ⟨_, _, rfl, by decide⟩
  | array values => exact ⟨_, _, rfl, by decide⟩
  | object fields => exact ⟨_, _, rfl, by decide⟩

theorem readWord_append (word : Bytes) (v : Value) (rest : Bytes) :
    readWord word v (word ++ rest) = some (v, rest) := by
  rw [readWord, expect_append, Option.map_some]

theorem readField_printField {read : Bytes → Option (Value × Bytes)} {field : String × Value}
    {rest : Bytes} (h : read (field.2.print ++ rest) = some (field.2, rest)) :
    readField read (Value.printField field ++ rest) = some (field, rest) := by
  have hcolon : ∀ b : Bytes, expect [0x3a] (0x3a :: b) = some b := expect_append [0x3a]
  rw [readField, Value.printField, List.append_assoc, readString_quote, Option.bind_some,
    List.cons_append, hcolon, Option.bind_some, h, Option.map_some]

theorem readValue_print {fuel : ℕ} {v : Value} (hfuel : v.print.length ≤ fuel) {rest : Bytes}
    (h : Ends rest) : readValue fuel (v.print ++ rest) = some (v, rest) := by
  induction fuel generalizing v rest with
  | zero =>
    obtain ⟨c, text, htext, -⟩ := v.print_opens
    rw [htext] at hfuel
    exact absurd hfuel (by simp)
  | succ fuel ih =>
    cases v with
    | null => exact readWord_append (Value.print .null) .null rest
    | bool b =>
      cases b with
      | false => exact readWord_append (Value.print (.bool false)) (.bool false) rest
      | true => exact readWord_append (Value.print (.bool true)) (.bool true) rest
    | number n =>
      obtain ⟨c, text, htext⟩ := List.exists_cons_of_ne_nil n.ne_nil
      -- the first byte of a number is none of those that open a string, an array or an object
      have hc : isNumberByte c = true := n.bytes c (htext ▸ List.mem_cons_self)
      have hne : c ≠ 0x22 ∧ c ≠ 0x5b ∧ c ≠ 0x7b := by
        refine ⟨?_, ?_, ?_⟩
        all_goals
          rintro rfl
          exact absurd hc (by decide)
      have hn := readNumber_literal n h
      rw [Value.print]
      rw [htext, List.cons_append] at hn ⊢
      rw [readValue, if_neg hne.1, if_neg hne.2.1, if_neg hne.2.2, if_pos hc, hn, Option.map_some]
    | string s =>
      show (readString (quote s ++ rest)).map _ = _
      rw [readString_quote, Option.map_some]
    | array values =>
      show (readItems (readValue fuel) 0x5d
        (enclosed 0x5d (Value.printValues values) ++ rest)).map _ = _
      rw [Value.print, Value.printValues_eq_map, List.length_cons] at hfuel
      rw [Value.printValues_eq_map, readItems_enclosed (by decide) (by decide), Option.map_some]
      · exact fun v _ => v.print_opens
      · intro v hv rest' hrest'
        -- an element is shorter than the array around it, so the fuel lasts
        have hlt := length_lt_enclosed 0x5d (List.mem_map_of_mem (f := Value.print) hv)
        exact ih (by omega) hrest'
    | object fields =>
      show (readItems (readField (readValue fuel)) 0x7d
        (enclosed 0x7d (Value.printFields fields) ++ rest)).map _ = _
      rw [Value.print, Value.printFields_eq_map, List.length_cons] at hfuel
      rw [Value.printFields_eq_map, readItems_enclosed (by decide) (by decide), Option.map_some]
      · exact fun field _ => ⟨0x22, _, rfl, by decide⟩
      · intro field hfield rest' hrest'
        have hlt := length_lt_enclosed 0x7d (List.mem_map_of_mem (f := Value.printField) hfield)
        refine readField_printField (ih ?_ hrest')
        rw [Value.printField, List.length_append, List.length_cons] at hlt
        omega

theorem parse_print (v : Value) : parse v.print = some v := by
  have hends : Ends [] := fun b hb => absurd hb (by simp)
  have hread := readValue_print (Nat.le_refl v.print.length) hends
  rw [List.append_nil] at hread
  rw [parse, hread]

/-! ## Strings stand in the text -/

/-- A reader that takes at least as many bytes as a size says. -/
def Covers {α : Type} (size : α → ℕ) (read : Bytes → Option (α × Bytes)) : Prop :=
  ∀ b x rest, read b = some (x, rest) → size x + rest.length ≤ b.length

section
variable {α : Type} {size : α → ℕ} {read : Bytes → Option (α × Bytes)}

theorem Covers.readMany (h : Covers size read) (closing : UInt8) (fuel : ℕ) :
    Covers (fun xs => (xs.map size).sum) (readMany read closing fuel) := by
  induction fuel with
  | zero => exact fun b xs rest hread => absurd hread (by simp [Json.readMany])
  | succ fuel ih =>
    intro b xs rest hread
    cases b with
    | nil => exact absurd hread (by simp [Json.readMany])
    | cons c b =>
      rw [Json.readMany] at hread
      split_ifs at hread
      · obtain ⟨rfl, rfl⟩ := Prod.mk.inj (Option.some.inj hread)
        simp
      · obtain ⟨p, hp, hmap⟩ := Option.bind_eq_some_iff.mp hread
        obtain ⟨q, hq, heq⟩ := Option.map_eq_some_iff.mp hmap
        obtain ⟨rfl, rfl⟩ := Prod.mk.inj heq
        have h₁ := h b p.1 p.2 hp
        have h₂ := ih p.2 q.1 q.2 hq
        dsimp only at h₂
        simp only [List.map_cons, List.sum_cons, List.length_cons]
        omega

theorem Covers.readItems (h : Covers size read) (closing : UInt8) :
    Covers (fun xs => (xs.map size).sum) (readItems read closing) := by
  intro b xs rest hread
  cases b with
  | nil => exact absurd hread (by simp [Json.readItems])
  | cons c b =>
    rw [Json.readItems] at hread
    split_ifs at hread
    · obtain ⟨rfl, rfl⟩ := Prod.mk.inj (Option.some.inj hread)
      simp
    · obtain ⟨p, hp, hmap⟩ := Option.bind_eq_some_iff.mp hread
      obtain ⟨q, hq, heq⟩ := Option.map_eq_some_iff.mp hmap
      obtain ⟨rfl, rfl⟩ := Prod.mk.inj heq
      have h₁ := h (c :: b) p.1 p.2 hp
      have h₂ := h.readMany closing p.2.length p.2 q.1 q.2 hq
      simp only [List.map_cons, List.sum_cons]
      dsimp only at h₂
      omega

theorem covers_readString : Covers (fun s => (utf8 s).length) readString := by
  intro b s rest hread
  obtain ⟨-, hle⟩ := Option.filter_eq_some_iff.mp hread
  exact of_decide_eq_true hle

theorem length_le_of_expect {text b rest : Bytes} (h : expect text b = some rest) :
    rest.length ≤ b.length := by
  unfold expect at h
  split_ifs at h
  obtain rfl := Option.some.inj h
  simp

theorem Covers.readField (h : Covers size read) :
    Covers (fun f => (utf8 f.1).length + size f.2) (readField read) := by
  intro b f rest hread
  obtain ⟨p, hp, hbind⟩ := Option.bind_eq_some_iff.mp hread
  obtain ⟨r, hr, hmap⟩ := Option.bind_eq_some_iff.mp hbind
  obtain ⟨q, hq, heq⟩ := Option.map_eq_some_iff.mp hmap
  obtain ⟨rfl, rfl⟩ := Prod.mk.inj heq
  have h₁ := covers_readString b p.1 p.2 hp
  have h₂ := h r q.1 q.2 hq
  have hcolon := length_le_of_expect hr
  dsimp only at h₁ ⊢
  omega

end

theorem textSizes_eq_sum (values : List Value) :
    Value.textSizes values = (values.map Value.textSize).sum := by
  induction values with
  | nil => rfl
  | cons v values ih => rw [Value.textSizes, ih, List.map_cons, List.sum_cons]

theorem fieldSizes_eq_sum (fields : List (String × Value)) :
    Value.fieldSizes fields = (fields.map fun f => (utf8 f.1).length + f.2.textSize).sum := by
  induction fields with
  | nil => rfl
  | cons f fields ih => rw [Value.fieldSizes, ih, List.map_cons, List.sum_cons]

theorem length_le_of_readWord {word b rest : Bytes} {v w : Value}
    (h : readWord word w b = some (v, rest)) : v = w ∧ rest.length ≤ b.length := by
  obtain ⟨r, hr, heq⟩ := Option.map_eq_some_iff.mp h
  obtain ⟨rfl, rfl⟩ := Prod.mk.inj heq
  exact ⟨rfl, length_le_of_expect hr⟩

theorem length_le_of_readNumber {b rest : Bytes} {n : Number}
    (h : readNumber b = some (n, rest)) : rest.length ≤ b.length := by
  unfold readNumber at h
  split_ifs at h
  obtain ⟨-, rfl⟩ := Prod.mk.inj (Option.some.inj h)
  exact (List.dropWhile_sublist isNumberByte).length_le

theorem covers_readValue (fuel : ℕ) : Covers Value.textSize (readValue fuel) := by
  induction fuel with
  | zero => exact fun b v rest hread => absurd hread (by simp [readValue])
  | succ fuel ih =>
    intro b v rest hread
    cases b with
    | nil => exact absurd hread (by simp [readValue])
    | cons c b =>
      rw [readValue] at hread
      split_ifs at hread
      · obtain ⟨p, hp, heq⟩ := Option.map_eq_some_iff.mp hread
        obtain ⟨rfl, rfl⟩ := Prod.mk.inj heq
        exact covers_readString _ _ _ hp
      · obtain ⟨p, hp, heq⟩ := Option.map_eq_some_iff.mp hread
        obtain ⟨rfl, rfl⟩ := Prod.mk.inj heq
        have hle := ih.readItems 0x5d b p.1 p.2 hp
        rw [Value.textSize, textSizes_eq_sum, List.length_cons]
        exact Nat.le_succ_of_le hle
      · obtain ⟨p, hp, heq⟩ := Option.map_eq_some_iff.mp hread
        obtain ⟨rfl, rfl⟩ := Prod.mk.inj heq
        have hle := ih.readField.readItems 0x7d b p.1 p.2 hp
        rw [Value.textSize, fieldSizes_eq_sum, List.length_cons]
        exact Nat.le_succ_of_le hle
      · obtain ⟨p, hp, heq⟩ := Option.map_eq_some_iff.mp hread
        obtain ⟨rfl, rfl⟩ := Prod.mk.inj heq
        rw [Value.textSize, Nat.zero_add]
        exact length_le_of_readNumber hp
      all_goals
        obtain ⟨rfl, hle⟩ := length_le_of_readWord hread
        rw [Value.textSize, Nat.zero_add]
        exact hle

/-- A text is at least as long as the strings it holds. -/
theorem textSize_le_of_parse {b : Bytes} {v : Value} (h : parse b = some v) :
    v.textSize ≤ b.length := by
  unfold parse at h
  split at h
  · rename_i w hread
    obtain rfl := Option.some.inj h
    simpa using covers_readValue b.length b w [] hread
  · exact absurd h (by simp)

/-! ## The text is ASCII -/

/-- The bytes are those of a string. -/
def isUtf8 (b : Bytes) : Bool := b.toByteArray.validateUTF8

def IsAscii (b : Bytes) : Prop := ∀ x ∈ b, x.toNat < 0x80

theorem isUtf8_of_isAscii {b : Bytes} (h : IsAscii b) : isUtf8 b = true := by
  have hencode : ∀ n < 0x80, String.utf8EncodeChar (Char.ofNat n) = [UInt8.ofNat n] := by decide
  have hbytes : (b.map fun x => Char.ofNat x.toNat).flatMap String.utf8EncodeChar = b := by
    induction b with
    | nil => rfl
    | cons x b ih =>
      rw [IsAscii, List.forall_mem_cons] at h
      rw [List.map_cons, List.flatMap_cons, ih h.2, hencode _ h.1, UInt8.ofNat_toNat,
        List.singleton_append]
  rw [isUtf8, ByteArray.validateUTF8_eq_true_iff]
  refine ⟨b.map fun x => Char.ofNat x.toNat, ?_⟩
  rw [List.utf8Encode, hbytes]

theorem isAscii_append {b b' : Bytes} (h : IsAscii b) (h' : IsAscii b') : IsAscii (b ++ b') :=
  List.forall_mem_append.mpr ⟨h, h'⟩

theorem isAscii_following {closing : UInt8} (hclosing : closing.toNat < 0x80) {texts : List Bytes}
    (h : ∀ text ∈ texts, IsAscii text) : IsAscii (following closing texts) := by
  induction texts with
  | nil => exact List.forall_mem_singleton.mpr hclosing
  | cons text texts ih =>
    rw [List.forall_mem_cons] at h
    exact List.forall_mem_cons.mpr ⟨by decide, isAscii_append h.1 (ih h.2)⟩

theorem isAscii_enclosed {closing : UInt8} (hclosing : closing.toNat < 0x80) {texts : List Bytes}
    (h : ∀ text ∈ texts, IsAscii text) : IsAscii (enclosed closing texts) := by
  cases texts with
  | nil => exact List.forall_mem_singleton.mpr hclosing
  | cons text texts =>
    rw [List.forall_mem_cons] at h
    exact isAscii_append h.1 (isAscii_following hclosing h.2)

theorem isAscii_quote (s : String) : IsAscii (quote s) := by
  have hhex : ∀ d, d < 16 → (hex d).toNat < 0x80 := by decide
  have hunit : ∀ n, IsAscii (escapeUnit n) := by
    intro n
    have hdigit : ∀ n, (hex (n % 16)).toNat < 0x80 := fun n => hhex _ (Nat.mod_lt n (by decide))
    simp only [IsAscii, escapeUnit, List.forall_mem_cons, hdigit, true_and]
    simp
  have hchar : ∀ c, IsAscii (escapeChar c) := by
    intro c
    unfold escapeChar
    split_ifs with hplain
    · simp only [isPlain, Bool.and_eq_true, decide_eq_true_eq] at hplain
      refine List.forall_mem_singleton.mpr ?_
      rw [UInt8.toNat_ofNat']
      omega
    · exact hunit _
    · exact isAscii_append (hunit _) (hunit _)
  refine List.forall_mem_cons.mpr ⟨by decide, isAscii_append ?_ (by simp [IsAscii])⟩
  intro x hx
  obtain ⟨c, -, hxc⟩ := List.mem_flatMap.mp hx
  exact hchar c x hxc

theorem isAscii_number (n : Number) : IsAscii n.literal := by
  intro x hx
  have hbyte := n.bytes x hx
  simp only [isNumberByte, Bool.or_eq_true, Bool.and_eq_true, decide_eq_true_eq, beq_iff_eq] at hbyte
  rcases hbyte with ((((h | rfl) | rfl) | rfl) | rfl) | rfl
  · omega
  all_goals decide

theorem isAscii_print {n : ℕ} {v : Value} (h : v.print.length ≤ n) : IsAscii v.print := by
  induction n generalizing v with
  | zero =>
    intro x hx
    rw [List.eq_nil_of_length_eq_zero (Nat.le_zero.mp h)] at hx
    exact absurd hx List.not_mem_nil
  | succ n ih =>
    cases v with
    | null => simp [IsAscii, Value.print]
    | bool b => cases b <;> simp [IsAscii, Value.print]
    | number n => exact isAscii_number n
    | string s => exact isAscii_quote s
    | array values =>
      rw [Value.print, Value.printValues_eq_map, List.length_cons] at h
      rw [Value.print, Value.printValues_eq_map]
      refine List.forall_mem_cons.mpr ⟨by decide, isAscii_enclosed (by decide) ?_⟩
      intro text htext
      have hlt := length_lt_enclosed 0x5d htext
      obtain ⟨v, -, rfl⟩ := List.mem_map.mp htext
      exact ih (by omega)
    | object fields =>
      rw [Value.print, Value.printFields_eq_map, List.length_cons] at h
      rw [Value.print, Value.printFields_eq_map]
      refine List.forall_mem_cons.mpr ⟨by decide, isAscii_enclosed (by decide) ?_⟩
      intro text htext
      have hlt := length_lt_enclosed 0x7d htext
      obtain ⟨field, -, rfl⟩ := List.mem_map.mp htext
      rw [Value.printField, List.length_append, List.length_cons] at hlt
      exact isAscii_append (isAscii_quote field.1)
        (List.forall_mem_cons.mpr ⟨by decide, ih (by omega)⟩)

theorem isUtf8_print (v : Value) : isUtf8 v.print = true :=
  isUtf8_of_isAscii (isAscii_print (Nat.le_refl v.print.length))

end Json
