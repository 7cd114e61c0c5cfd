import Raftoral.Lib.Json

/-!
# JSON formats

How values of a type are written as JSON and read back. A `Format` carries its round trip as a
field: whatever follows the text of a value is left over, as long as it does not go on with a
digit. Numbers, arrays, objects and records are built from the formats of their parts.
-/

namespace Json

def isDigit (b : UInt8) : Bool := 0x30 ≤ b.toNat && b.toNat < 0x3a

/-- A number ends here. -/
def Stops (rest : Bytes) : Prop := ∀ b ∈ rest.head?, isDigit b = false

theorem stops_cons {b : UInt8} (rest : Bytes) (h : isDigit b = false) : Stops (b :: rest) := by
  intro c hc
  obtain rfl : b = c := Option.some.inj hc
  exact h

/-- A bracket that closes an array or an object. -/
def isClosing (b : UInt8) : Bool := b == 0x5d || b == 0x7d

theorem isDigit_of_isClosing {b : UInt8} (h : isClosing b = true) : isDigit b = false := by
  unfold isClosing at h
  simp only [Bool.or_eq_true, beq_iff_eq] at h
  rcases h with rfl | rfl
  · decide
  · decide

theorem isClosing_of_isDigit {b : UInt8} (h : isDigit b = true) : isClosing b = false := by
  by_contra hclosing
  rw [isDigit_of_isClosing (by simpa using hclosing)] at h
  exact absurd h (by simp)

/-- How a type is written and read. No value starts like the end of a list of values. -/
structure Format (α : Type) where
  write : α → Bytes
  read : Bytes → Option (α × Bytes)
  opens : ∀ a, ∃ b rest, write a = b :: rest ∧ isClosing b = false
  read_write : ∀ a rest, Stops rest → read (write a ++ rest) = some (a, rest)

namespace Format

variable {α β : Type}

def string : Format String where
  write := quote
  read := readQuoted
  opens _ := ⟨_, _, rfl, by decide⟩
  read_write s rest _ := readQuoted_quote s rest

/-- A format of a type that is represented by another. -/
def via (f : Format α) (represent : β → α) (interpret : α → Option β)
    (h : ∀ b, interpret (represent b) = some b) : Format β where
  write b := f.write (represent b)
  read bytes := (f.read bytes).bind fun p => (interpret p.1).map (·, p.2)
  opens b := f.opens (represent b)
  read_write b rest hrest := by
    rw [f.read_write _ rest hrest, Option.bind_some, h, Option.map_some]

/-! ## Numbers -/

def digit (d : ℕ) : UInt8 := UInt8.ofNat (0x30 + d)

def writeNat (n : ℕ) : Bytes := if n = 0 then [digit 0] else (Nat.digits 10 n).reverse.map digit

def readNat (b : Bytes) : Option (ℕ × Bytes) :=
  let ds := b.takeWhile isDigit
  if ds = [] then none
  else some (ds.foldl (fun n d => n * 10 + (d.toNat - 0x30)) 0, b.dropWhile isDigit)

theorem toNat_digit {d : ℕ} (h : d < 10) : (digit d).toNat = 0x30 + d := by
  rw [digit, UInt8.toNat_ofNat']
  omega

theorem isDigit_digit {d : ℕ} (h : d < 10) : isDigit (digit d) = true := by
  rw [isDigit, toNat_digit h]
  simp
  omega

theorem foldl_digits (ds : List ℕ) (h : ∀ d ∈ ds, d < 10) :
    (ds.reverse.map digit).foldl (fun n d => n * 10 + (d.toNat - 0x30)) 0 = Nat.ofDigits 10 ds := by
  induction ds with
  | nil => rfl
  | cons d ds ih =>
    have hd : d < 10 := h d List.mem_cons_self
    rw [List.reverse_cons, List.map_append, List.foldl_append,
      ih fun x hx => h x (List.mem_cons_of_mem d hx), Nat.ofDigits_cons]
    simp only [List.map_cons, List.map_nil, List.foldl_cons, List.foldl_nil, toNat_digit hd]
    omega

/-- The digits of a number, and the number they stand for. -/
theorem writeNat_eq (n : ℕ) : ∃ ds : List ℕ, ds ≠ [] ∧ (∀ d ∈ ds, d < 10) ∧
    writeNat n = ds.reverse.map digit ∧ Nat.ofDigits 10 ds = n := by
  unfold writeNat
  by_cases hn : n = 0
  · refine ⟨[0], by simp, by simp, by simp [hn], by simp [hn]⟩
  · refine ⟨Nat.digits 10 n, Nat.digits_ne_nil_iff_ne_zero.mpr hn, ?_, by rw [if_neg hn],
      Nat.ofDigits_digits 10 n⟩
    exact fun d hd => Nat.digits_lt_base (by decide) hd

theorem takeWhile_stops {ds rest : Bytes} (hds : ∀ d ∈ ds, isDigit d = true) (hrest : Stops rest) :
    (ds ++ rest).takeWhile isDigit = ds ∧ (ds ++ rest).dropWhile isDigit = rest := by
  rw [List.takeWhile_append_of_pos hds, List.dropWhile_append_of_pos hds]
  cases rest with
  | nil => simp
  | cons b rest => simp [hrest b rfl]

def nat : Format ℕ where
  write := writeNat
  read := readNat
  opens n := by
    obtain ⟨ds, hne, hlt, heq, -⟩ := writeNat_eq n
    obtain ⟨d, ds', hds⟩ := List.exists_cons_of_ne_nil (by simpa using hne : ds.reverse ≠ [])
    have hd : d < 10 := hlt d (by rw [← List.mem_reverse, hds]; exact List.mem_cons_self)
    refine ⟨digit d, ds'.map digit, by rw [heq, hds, List.map_cons], ?_⟩
    exact isClosing_of_isDigit (isDigit_digit hd)
  read_write n rest hrest := by
    obtain ⟨ds, hne, hlt, heq, hvalue⟩ := writeNat_eq n
    have hdigits : ∀ b ∈ ds.reverse.map digit, isDigit b = true := by
      intro b hb
      obtain ⟨d, hd, rfl⟩ := List.mem_map.mp hb
      exact isDigit_digit (hlt d (List.mem_reverse.mp hd))
    obtain ⟨htake, hdrop⟩ := takeWhile_stops hdigits hrest
    simp only [readNat]
    rw [heq, htake, hdrop, foldl_digits ds hlt, hvalue, if_neg (by simpa using hne)]

/-! ## Arrays and objects -/

section
variable (closing : UInt8) (f : Format α)

/-- The values behind the first, and the end of the list. -/
def writeMore : List α → Bytes
  | [] => [closing]
  | a :: l => 0x2c :: (f.write a ++ writeMore l)

/-- Every value takes a byte at least, so the length of the input bounds the loop. -/
def readMore : ℕ → Bytes → Option (List α × Bytes)
  | 0, _ => none
  | _ + 1, [] => none
  | fuel + 1, c :: b =>
    if c = closing then some ([], b)
    else (f.read b).bind fun p => (readMore fuel p.2).map fun q => (p.1 :: q.1, q.2)

theorem length_lt_writeMore (l : List α) : l.length < (writeMore closing f l).length := by
  induction l with
  | nil => simp [writeMore]
  | cons a l ih =>
    simp only [writeMore, List.length_cons, List.length_append]
    omega

variable {closing} in
theorem stops_writeMore (hclosing : isClosing closing = true) (l : List α) (rest : Bytes) :
    Stops (writeMore closing f l ++ rest) := by
  cases l with
  | nil => exact stops_cons rest (isDigit_of_isClosing hclosing)
  | cons a l => exact stops_cons _ (by decide)

variable {closing} in
theorem readMore_writeMore (hclosing : isClosing closing = true) (l : List α) (rest : Bytes)
    {fuel : ℕ} (h : l.length < fuel) :
    readMore closing f fuel (writeMore closing f l ++ rest) = some (l, rest) := by
  induction l generalizing fuel with
  | nil =>
    obtain ⟨fuel, rfl⟩ := Nat.exists_eq_succ_of_ne_zero (Nat.ne_of_gt h)
    rw [writeMore, List.singleton_append, readMore, if_pos rfl]
  | cons a l ih =>
    obtain ⟨fuel, rfl⟩ := Nat.exists_eq_succ_of_ne_zero (Nat.ne_of_gt (Nat.zero_lt_of_lt h))
    have hcomma : (0x2c : UInt8) ≠ closing := by
      rintro rfl
      exact absurd hclosing (by decide)
    rw [writeMore, List.cons_append, List.append_assoc, readMore, if_neg hcomma,
      f.read_write a _ (stops_writeMore f hclosing l rest), Option.bind_some,
      ih (Nat.lt_of_succ_lt_succ h), Option.map_some]

end

/-- A list of values between brackets. -/
def between (opening closing : UInt8) (hopening : isClosing opening = false)
    (hclosing : isClosing closing = true) (f : Format α) : Format (List α) where
  write
    | [] => [opening, closing]
    | a :: l => opening :: (f.write a ++ writeMore closing f l)
  read
    | [] => none
    | [_] => none
    | b :: c :: rest =>
      if b ≠ opening then none
      else if c = closing then some ([], rest)
      -- every further value takes a byte at least
      else (f.read (c :: rest)).bind fun p =>
        (readMore closing f (p.2.length + 1) p.2).map fun q => (p.1 :: q.1, q.2)
  opens
    | [] => ⟨opening, [closing], rfl, hopening⟩
    | a :: l => ⟨opening, f.write a ++ writeMore closing f l, rfl, hopening⟩
  read_write l rest _ := by
    cases l with
    | nil => simp
    | cons a l =>
      obtain ⟨c, t, hc, hopen⟩ := f.opens a
      -- the first value is not taken for the end of the list
      have hne : c ≠ closing := by
        rintro rfl
        rw [hclosing] at hopen
        exact absurd hopen (by simp)
      have hlength : l.length < (writeMore closing f l ++ rest).length + 1 := by
        have := length_lt_writeMore closing f l
        rw [List.length_append]
        omega
      have hread := f.read_write a _ (stops_writeMore f hclosing l rest)
      rw [hc, List.cons_append] at hread
      simp only [hc, List.cons_append, List.append_assoc, ne_eq, not_true_eq_false, if_false,
        if_neg hne, hread, Option.bind_some, readMore_writeMore f hclosing l rest hlength,
        Option.map_some]

def array (f : Format α) : Format (List α) := between 0x5b 0x5d (by decide) (by decide) f

/-! ## Records -/

/-- Two values with fixed texts before, between and behind them. -/
def join (before middle behind : Bytes) (f : Format α) (g : Format β)
    (hbefore : ∀ b ∈ before.head?, isClosing b = false)
    (hmiddle : ∀ rest, Stops (middle ++ rest))
    (hbehind : ∀ rest, Stops rest → Stops (behind ++ rest)) : Format (α × β) where
  write p := before ++ (f.write p.1 ++ (middle ++ (g.write p.2 ++ behind)))
  read bytes := do
    let bytes ← expect before bytes
    let (a, bytes) ← f.read bytes
    let bytes ← expect middle bytes
    let (b, bytes) ← g.read bytes
    let bytes ← expect behind bytes
    return ((a, b), bytes)
  opens p := by
    cases before with
    | nil =>
      obtain ⟨b, rest, heq, hb⟩ := f.opens p.1
      exact ⟨b, rest ++ (middle ++ (g.write p.2 ++ behind)), by rw [heq]; rfl, hb⟩
    | cons b before => exact ⟨b, _, rfl, hbefore b rfl⟩
  read_write p rest hrest := by
    simp only [List.append_assoc, expect_append, Option.bind_eq_bind, Option.bind_some,
      f.read_write p.1 _ (hmiddle _), g.read_write p.2 _ (hbehind rest hrest)]
    rfl

/-- The members of an object. -/
def object (f : Format α) : Format (List (String × α)) :=
  between 0x7b 0x7d (by decide) (by decide) (join [] [0x3a] [] string f (by simp)
    (fun rest => stops_cons rest (by decide)) (fun _ h => h))

/-- A value between quotation marks. -/
def quoted (f : Format α) : Format α where
  write a := [0x22] ++ (f.write a ++ [0x22])
  read bytes := do
    let bytes ← expect [0x22] bytes
    let (a, bytes) ← f.read bytes
    let bytes ← expect [0x22] bytes
    return (a, bytes)
  opens a := ⟨_, _, rfl, by decide⟩
  read_write a rest _ := by
    have hstops : Stops ([0x22] ++ rest) := stops_cons rest (by decide)
    simp only [List.append_assoc, expect_append, Option.bind_eq_bind, Option.bind_some,
      f.read_write a _ hstops]
    rfl

/-- The members of an object whose keys are numbers. -/
def numberedObject (f : Format α) : Format (List (ℕ × α)) :=
  between 0x7b 0x7d (by decide) (by decide) (join [] [0x3a] [] (quoted nat) f (by simp)
    (fun rest => stops_cons rest (by decide)) (fun _ h => h))

/-- The name of a field that is not the first one. -/
def nextField (name : String) : Bytes := 0x2c :: (quote name ++ [0x3a])

/-- A field and the next. -/
def fields (second : String) (f : Format α) (g : Format β) : Format (α × β) :=
  join [] (nextField second) [] f g (by simp) (fun _ => stops_cons _ (by decide)) (fun _ h => h)

/-- A record; the fields behind the first two belong to the second format. -/
def record (first second : String) (f : Format α) (g : Format β) : Format (α × β) :=
  join (0x7b :: (quote first ++ [0x3a])) (nextField second) [0x7d] f g
    (fun b hb => by rw [← Option.some.inj hb]; decide) (fun _ => stops_cons _ (by decide))
    (fun rest _ => stops_cons rest (by decide))

end Format

end Json
