import Raftoral.Lib.Word

/-!
# JSON strings

The quoted form of a string and the reader that inverts it. Printable ASCII characters
stand for themselves. The quote, the backslash and all others are written as `\u` and four
hexadecimal digits, those beyond the first plane as a surrogate pair of these.
-/

namespace Json

/-- A hexadecimal digit. -/
def hex (d : ℕ) : UInt8 := if d < 10 then UInt8.ofNat (0x30 + d) else UInt8.ofNat (0x57 + d)

/-- The value of a hexadecimal digit. -/
def unhex (b : UInt8) : ℕ := if b.toNat < 0x3a then b.toNat - 0x30 else b.toNat - 0x57

theorem unhex_hex {d : ℕ} (h : d < 16) : unhex (hex d) = d := by
  unfold hex unhex
  split
  · rw [UInt8.toNat_ofNat']
    split <;> omega
  · rw [UInt8.toNat_ofNat']
    split <;> omega

/-- The characters that stand for themselves. -/
def isPlain (c : Char) : Bool :=
  0x20 ≤ c.toNat && c.toNat < 0x7f && c.toNat != 0x22 && c.toNat != 0x5c

/-- Four hexadecimal digits behind `\u`. -/
def escapeUnit (n : ℕ) : Bytes :=
  [0x5c, 0x75, hex (n / 16 ^ 3 % 16), hex (n / 16 ^ 2 % 16), hex (n / 16 % 16), hex (n % 16)]

def escapeChar (c : Char) : Bytes :=
  if isPlain c then [UInt8.ofNat c.toNat]
  else if c.toNat < 0x10000 then escapeUnit c.toNat
  else escapeUnit (0xd800 + (c.toNat - 0x10000) / 0x400) ++
    escapeUnit (0xdc00 + (c.toNat - 0x10000) % 0x400)

/-- The quoted form of a string. -/
def quote (s : String) : Bytes := 0x22 :: (s.toList.flatMap escapeChar ++ [0x22])

/-- The value of four hexadecimal digits. -/
def unitOf (d₃ d₂ d₁ d₀ : UInt8) : ℕ :=
  unhex d₃ * 16 ^ 3 + unhex d₂ * 16 ^ 2 + unhex d₁ * 16 + unhex d₀

/-- The first half of a surrogate pair. -/
def isHighSurrogate (n : ℕ) : Bool := 0xd800 ≤ n && n < 0xdc00

/-- Read what stands behind a backslash. -/
def readEscape : Bytes → Option (Char × Bytes)
  | _ :: d₃ :: d₂ :: d₁ :: d₀ :: rest =>
    if isHighSurrogate (unitOf d₃ d₂ d₁ d₀) then
      match rest with
      | _ :: _ :: e₃ :: e₂ :: e₁ :: e₀ :: rest =>
        some (Char.ofNat (0x10000 + (unitOf d₃ d₂ d₁ d₀ - 0xd800) * 0x400 +
          (unitOf e₃ e₂ e₁ e₀ - 0xdc00)), rest)
      | _ => none
    else some (Char.ofNat (unitOf d₃ d₂ d₁ d₀), rest)
  | _ => none

/-- Read characters up to the closing quote. -/
def readChars : ℕ → Bytes → Option (List Char × Bytes)
  | 0, _ | _, [] => none
  | fuel + 1, b :: rest =>
    if b = 0x22 then some ([], rest)
    else (if b = 0x5c then readEscape rest else some (Char.ofNat b.toNat, rest)).bind fun p =>
      (readChars fuel p.2).map fun q => (p.1 :: q.1, q.2)

/-- Read a quoted string off the front. Every character takes a byte at least. -/
def readQuoted : Bytes → Option (String × Bytes)
  | [] => none
  | b :: rest =>
    if b = 0x22 then (readChars rest.length rest).map fun p => (String.ofList p.1, p.2) else none

theorem unitOf_hex {n : ℕ} (h : n < 0x10000) :
    unitOf (hex (n / 16 ^ 3 % 16)) (hex (n / 16 ^ 2 % 16)) (hex (n / 16 % 16)) (hex (n % 16)) =
      n := by
  unfold unitOf
  rw [unhex_hex (Nat.mod_lt _ (by decide)), unhex_hex (Nat.mod_lt _ (by decide)),
    unhex_hex (Nat.mod_lt _ (by decide)), unhex_hex (Nat.mod_lt _ (by decide))]
  omega

/-- No character is a surrogate. -/
theorem char_range (c : Char) : c.toNat < 0xd800 ∨ 0xdfff < c.toNat ∧ c.toNat < 0x110000 := by
  have hvalid := c.valid
  simp only [UInt32.isValidChar, Nat.isValidChar] at hvalid
  exact hvalid

theorem not_isHighSurrogate (c : Char) : isHighSurrogate c.toNat = false := by
  have hrange := char_range c
  simp only [isHighSurrogate, Bool.and_eq_false_iff, decide_eq_false_iff_not]
  omega

theorem readEscape_unit {u d₃ d₂ d₁ d₀ : UInt8}
    (h : isHighSurrogate (unitOf d₃ d₂ d₁ d₀) = false) (rest : Bytes) :
    readEscape (u :: d₃ :: d₂ :: d₁ :: d₀ :: rest) =
      some (Char.ofNat (unitOf d₃ d₂ d₁ d₀), rest) := by
  rw [readEscape.eq_def]
  dsimp only
  rw [if_neg (by rw [h]; exact Bool.false_ne_true)]

theorem readEscape_pair {u d₃ d₂ d₁ d₀ b v e₃ e₂ e₁ e₀ : UInt8}
    (h : isHighSurrogate (unitOf d₃ d₂ d₁ d₀) = true) (rest : Bytes) :
    readEscape (u :: d₃ :: d₂ :: d₁ :: d₀ :: b :: v :: e₃ :: e₂ :: e₁ :: e₀ :: rest) =
      some (Char.ofNat (0x10000 + (unitOf d₃ d₂ d₁ d₀ - 0xd800) * 0x400 +
        (unitOf e₃ e₂ e₁ e₀ - 0xdc00)), rest) := by
  rw [readEscape, if_pos h]

/-- What stands behind the backslash of an escaped character. -/
theorem readEscape_escapeChar {c : Char} (h : ¬ isPlain c) (rest : Bytes) :
    ∃ text, escapeChar c ++ rest = 0x5c :: text ∧ readEscape text = some (c, rest) := by
  unfold escapeChar
  rw [if_neg h]
  by_cases hplane : c.toNat < 0x10000
  · rw [if_pos hplane]
    simp only [escapeUnit, List.cons_append, List.nil_append]
    refine ⟨_, rfl, ?_⟩
    have hunit := unitOf_hex hplane
    rw [readEscape_unit (by rw [hunit]; exact not_isHighSurrogate c), hunit, Char.ofNat_toNat]
  · -- the largest code point is 0x10ffff
    have hrange := char_range c
    have hfirst := unitOf_hex (n := 0xd800 + (c.toNat - 0x10000) / 0x400) (by omega)
    have hsecond := unitOf_hex (n := 0xdc00 + (c.toNat - 0x10000) % 0x400) (by omega)
    have hsurrogate : isHighSurrogate (0xd800 + (c.toNat - 0x10000) / 0x400) = true := by
      simp only [isHighSurrogate, Bool.and_eq_true, decide_eq_true_eq]
      omega
    have hsum : 0x10000 + (c.toNat - 0x10000) / 0x400 * 0x400 + (c.toNat - 0x10000) % 0x400 =
        c.toNat := by omega
    rw [if_neg hplane]
    simp only [escapeUnit, List.cons_append, List.nil_append]
    refine ⟨_, rfl, ?_⟩
    rw [readEscape_pair (by rw [hfirst]; exact hsurrogate), hfirst, hsecond,
      Nat.add_sub_cancel_left, Nat.add_sub_cancel_left, hsum, Char.ofNat_toNat]

theorem readChars_escapeChar (fuel : ℕ) (c : Char) (rest : Bytes) :
    readChars (fuel + 1) (escapeChar c ++ rest) =
      (readChars fuel rest).map fun p => (c :: p.1, p.2) := by
  by_cases h : isPlain c
  · have hplain := h
    simp only [isPlain, Bool.and_eq_true, decide_eq_true_eq, bne_iff_ne] at hplain
    -- a plain character is its own code
    have hb : (UInt8.ofNat c.toNat).toNat = c.toNat := by
      rw [UInt8.toNat_ofNat']
      omega
    have h₁ : UInt8.ofNat c.toNat ≠ 0x22 := fun heq => by
      rw [heq] at hb
      exact hplain.1.2 hb.symm
    have h₂ : UInt8.ofNat c.toNat ≠ 0x5c := fun heq => by
      rw [heq] at hb
      exact hplain.2 hb.symm
    rw [escapeChar, if_pos h, List.singleton_append, readChars, if_neg h₁, if_neg h₂, hb,
      Char.ofNat_toNat, Option.bind_some]
  · obtain ⟨text, htext, hread⟩ := readEscape_escapeChar h rest
    rw [htext, readChars, if_neg (by decide), if_pos rfl, hread, Option.bind_some]

theorem readChars_flatMap {fuel : ℕ} {cs : List Char} (hfuel : cs.length < fuel) (rest : Bytes) :
    readChars fuel (cs.flatMap escapeChar ++ 0x22 :: rest) = some (cs, rest) := by
  induction cs generalizing fuel with
  | nil =>
    obtain ⟨fuel, rfl⟩ := Nat.exists_eq_succ_of_ne_zero (Nat.ne_of_gt hfuel)
    exact if_pos rfl
  | cons c cs ih =>
    obtain ⟨fuel, rfl⟩ := Nat.exists_eq_succ_of_ne_zero (Nat.ne_of_gt (Nat.zero_lt_of_lt hfuel))
    rw [List.flatMap_cons, List.append_assoc, readChars_escapeChar,
      ih (Nat.lt_of_succ_lt_succ hfuel), Option.map_some]

theorem length_le_flatMap (cs : List Char) : cs.length ≤ (cs.flatMap escapeChar).length := by
  induction cs with
  | nil => exact Nat.le_refl 0
  | cons c cs ih =>
    have hone : 0 < (escapeChar c).length := by
      unfold escapeChar escapeUnit
      split_ifs <;> simp
    rw [List.flatMap_cons, List.length_append, List.length_cons]
    omega

@[simp] theorem readQuoted_quote (s : String) (rest : Bytes) :
    readQuoted (quote s ++ rest) = some (s, rest) := by
  have hle := length_le_flatMap s.toList
  rw [quote, List.cons_append, List.append_assoc, List.singleton_append, readQuoted, if_pos rfl,
    readChars_flatMap (by rw [List.length_append, List.length_cons]; omega), Option.map_some,
    String.ofList_toList]

/-- Take a fixed text off the front. -/
def expect (text b : Bytes) : Option Bytes :=
  if b.take text.length = text then some (b.drop text.length) else none

@[simp] theorem expect_append (text rest : Bytes) : expect text (text ++ rest) = some rest := by
  simp [expect]

end Json
