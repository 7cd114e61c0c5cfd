import Mathlib.Tactic

/-!
# Words and their byte strings

Unsigned 32- and 64-bit arithmetic on `ℕ` with the reduction written out, and the fixed-width
big- and little-endian encodings of a 64-bit word, with their round trips.
-/

/-- A byte string. -/
abbrev Bytes := List UInt8

namespace U32

/-- The number of values of a 32-bit word. -/
def size : ℕ := 2 ^ 32

/-- Addition of 32-bit words; an overflow wraps around. -/
def add (a b : ℕ) : ℕ := (a + b) % size

theorem add_of_lt {a b : ℕ} (h : a + b < size) : add a b = a + b := Nat.mod_eq_of_lt h

end U32

namespace U64

/-- The number of values of a word. -/
def size : ℕ := 2 ^ 64

/-- Addition of words; an overflow wraps around. -/
def add (a b : ℕ) : ℕ := (a + b) % size

/-- Subtraction of words; an underflow wraps around. -/
def sub (a b : ℕ) : ℕ := (a + size - b % size) % size

theorem add_of_lt {a b : ℕ} (h : a + b < size) : add a b = a + b := Nat.mod_eq_of_lt h

theorem sub_self (a : ℕ) : sub a a = 0 := by
  have hlt : a % size < size := Nat.mod_lt _ (by decide)
  rw [sub, show a + size - a % size = size * (a / size + 1) by
    have := Nat.div_add_mod a size
    rw [Nat.mul_add]
    omega, Nat.mul_mod_right]

/-- The low `k` bytes of a number, most significant first. -/
def beBytes : ℕ → ℕ → Bytes
  | 0, _ => []
  | k + 1, n => beBytes k (n / 256) ++ [UInt8.ofNat (n % 256)]

/-- The eight bytes of a word, most significant first. -/
def toBeBytes (n : ℕ) : Bytes := beBytes 8 n

/-- The number a byte string denotes, most significant byte first. -/
def fromBeBytes (b : Bytes) : ℕ := b.foldl (fun acc x => acc * 256 + x.toNat) 0

/-- The eight bytes of a word, least significant first. -/
def toLeBytes (n : ℕ) : Bytes := (toBeBytes n).reverse

/-- The number a byte string denotes, least significant byte first. -/
def fromLeBytes (b : Bytes) : ℕ := fromBeBytes b.reverse

@[simp] theorem length_toBeBytes (n : ℕ) : (toBeBytes n).length = 8 := by
  simp [toBeBytes, beBytes]

@[simp] theorem length_toLeBytes (n : ℕ) : (toLeBytes n).length = 8 := by
  rw [toLeBytes, List.length_reverse, length_toBeBytes]

/-- Writing the low `k` bytes of a number and reading them back keeps its low `k` bytes. -/
theorem fromBeBytes_beBytes (k n : ℕ) : fromBeBytes (beBytes k n) = n % 256 ^ k := by
  induction k generalizing n with
  | zero => simp [beBytes, fromBeBytes, Nat.mod_one]
  | succ k ih =>
    have hlast : fromBeBytes (beBytes (k + 1) n) = fromBeBytes (beBytes k (n / 256)) * 256
        + (UInt8.ofNat (n % 256)).toNat := by
      rw [beBytes, fromBeBytes, List.foldl_append]
      rfl
    rw [hlast, ih, UInt8.toNat_ofNat', Nat.mod_mod, pow_succ, mul_comm (256 ^ k),
      Nat.mod_mul, mul_comm, add_comm]

@[simp] theorem fromBeBytes_toBeBytes {n : ℕ} (h : n < size) :
    fromBeBytes (toBeBytes n) = n := by
  rw [toBeBytes, fromBeBytes_beBytes]
  exact Nat.mod_eq_of_lt (by simpa [size] using h)

/-- A byte string denotes a number of its length. -/
theorem fromBeBytes_lt (b : Bytes) : fromBeBytes b < 256 ^ b.length := by
  induction b using List.reverseRecOn with
  | nil => exact Nat.one_pos
  | append_singleton b x ih =>
    rw [fromBeBytes, List.foldl_append, List.length_append, List.length_singleton, pow_succ]
    have hx : x.toNat < 256 := x.toNat_lt
    show fromBeBytes b * 256 + x.toNat < 256 ^ b.length * 256
    omega

@[simp] theorem fromLeBytes_toLeBytes {n : ℕ} (h : n < size) :
    fromLeBytes (toLeBytes n) = n := by
  rw [fromLeBytes, toLeBytes, List.reverse_reverse, fromBeBytes_toBeBytes h]

end U64
