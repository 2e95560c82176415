/-
Module: Os88.Library.ByteMemory
Purpose: A flat memory of bytes with little-endian stores and loads, and the
  frame relation that says where a store may change it.
Trusted boundary: none
Main exports: Memory, store8, store16, store32, store64, fill, storeBytes, load16,
  load32, load64, ChangedWithin, WordsAt
-/
import Mathlib.Order.Basic

namespace ByteMemory

/-- Bytes at natural addresses. -/
abbrev Memory := Nat → BitVec 8

def store8 (m : Memory) (a : Nat) (v : BitVec 8) : Memory :=
  fun b => if b = a then v else m b

def store16 (m : Memory) (a : Nat) (v : BitVec 16) : Memory :=
  store8 (store8 m a (v.extractLsb' 0 8)) (a + 1) (v.extractLsb' 8 8)

def store32 (m : Memory) (a : Nat) (v : BitVec 32) : Memory :=
  store16 (store16 m a (v.extractLsb' 0 16)) (a + 2) (v.extractLsb' 16 16)

/-- Set the `n` bytes from `p` on to `v`. -/
def fill (m : Memory) (p : Nat) (v : BitVec 8) (n : Nat) : Memory :=
  fun a => if p ≤ a ∧ a < p + n then v else m a

/-- Copy the first `n` of some bytes to the address `p`. -/
def storeBytes (m : Memory) (p n : Nat) (bytes : Nat → BitVec 8) : Memory :=
  fun a => if p ≤ a ∧ a < p + n then bytes (a - p) else m a

def load16 (m : Memory) (a : Nat) : BitVec 16 := m (a + 1) ++ m a

def store64 (m : Memory) (a : Nat) (v : BitVec 64) : Memory :=
  store32 (store32 m a (v.extractLsb' 0 32)) (a + 4) (v.extractLsb' 32 32)

def load32 (m : Memory) (a : Nat) : BitVec 32 := load16 m (a + 2) ++ load16 m a

def load64 (m : Memory) (a : Nat) : BitVec 64 := load32 m (a + 4) ++ load32 m a

/-- Two memories that differ at most at the addresses from `lo` to `hi - 1`. -/
def ChangedWithin (lo hi : Nat) (m m' : Memory) : Prop :=
  ∀ b, b < lo ∨ hi ≤ b → m' b = m b

variable {m m' m'' : Memory} {a b lo hi : Nat}

/-! ## Reading what was stored -/

/-- The two halves of a bit vector make it up. -/
theorem append_halves (w : Nat) (v : BitVec (w + w)) :
    v.extractLsb' w w ++ v.extractLsb' 0 w = v := by
  apply BitVec.eq_of_getLsbD_eq
  intro i bound
  simp only [BitVec.getLsbD_append, BitVec.getLsbD_extractLsb']
  by_cases lower : i < w
  · simp [lower]
  · have upper : i - w < w := by omega
    have position : w + (i - w) = i := by omega
    simp [lower, upper, position]

@[simp] theorem store8_self (v : BitVec 8) : store8 m a v a = v := if_pos rfl

theorem store8_of_ne (v : BitVec 8) (ne : b ≠ a) : store8 m a v b = m b :=
  if_neg ne

theorem fill_inside {p n : Nat} (v : BitVec 8) (lower : p ≤ a)
    (upper : a < p + n) : fill m p v n a = v :=
  if_pos ⟨lower, upper⟩

theorem storeBytes_inside {p n i : Nat} (bytes : Nat → BitVec 8) (inside : i < n) :
    storeBytes m p n bytes (p + i) = bytes i := by
  rw [storeBytes, if_pos ⟨by omega, by omega⟩, Nat.add_sub_cancel_left]

@[simp] theorem load16_store16 (v : BitVec 16) :
    load16 (store16 m a v) a = v := by
  have low : store16 m a v a = v.extractLsb' 0 8 := by
    rw [store16, store8_of_ne _ (by omega), store8_self]
  have high : store16 m a v (a + 1) = v.extractLsb' 8 8 := store8_self _
  rw [load16, low, high]
  exact append_halves 8 v

/-- A part of a part of a bit vector. -/
theorem extractLsb'_part {w n start len start' : Nat} (v : BitVec w)
    (inside : start' + n ≤ len) :
    (v.extractLsb' start len).extractLsb' start' n = v.extractLsb' (start + start') n := by
  apply BitVec.eq_of_getLsbD_eq
  intro i bound
  have lower : start' + i < len := by omega
  simp only [BitVec.getLsbD_extractLsb', bound, lower, decide_true, Bool.true_and,
    Nat.add_assoc]

/-- The four bytes of a word. -/
theorem store32_bytes (m : Memory) (a : Nat) (v : BitVec 32) :
    store32 m a v =
      store8 (store8 (store8 (store8 m a (v.extractLsb' 0 8))
        (a + 1) (v.extractLsb' 8 8)) (a + 2) (v.extractLsb' 16 8))
        (a + 3) (v.extractLsb' 24 8) := by
  rw [store32, store16, store16, extractLsb'_part v (by decide),
    extractLsb'_part v (by decide), extractLsb'_part v (by decide),
    extractLsb'_part v (by decide)]

/-! ## Frames -/

namespace ChangedWithin

theorem trans (first : ChangedWithin lo hi m m')
    (second : ChangedWithin lo hi m' m'') : ChangedWithin lo hi m m'' :=
  fun b outside => (second b outside).trans (first b outside)

theorem store8 (v : BitVec 8) (lower : lo ≤ a) (upper : a + 1 ≤ hi) :
    ChangedWithin lo hi m (store8 m a v) := by
  intro b outside
  exact store8_of_ne v (by omega)

theorem store16 (v : BitVec 16) (lower : lo ≤ a) (upper : a + 2 ≤ hi) :
    ChangedWithin lo hi m (store16 m a v) :=
  (ChangedWithin.store8 _ lower (by omega)).trans
    (ChangedWithin.store8 _ (by omega) (by omega))

theorem store32 (v : BitVec 32) (lower : lo ≤ a) (upper : a + 4 ≤ hi) :
    ChangedWithin lo hi m (store32 m a v) :=
  (ChangedWithin.store16 _ lower (by omega)).trans
    (ChangedWithin.store16 _ (by omega) (by omega))

theorem store64 (v : BitVec 64) (lower : lo ≤ a) (upper : a + 8 ≤ hi) :
    ChangedWithin lo hi m (store64 m a v) :=
  (ChangedWithin.store32 _ lower (by omega)).trans
    (ChangedWithin.store32 _ (by omega) (by omega))

theorem storeBytes {n : Nat} (bytes : Nat → BitVec 8) (lower : lo ≤ a)
    (upper : a + n ≤ hi) : ChangedWithin lo hi m (storeBytes m a n bytes) :=
  fun _ outside => if_neg (by omega)

/-- A change within a range is one within every larger range. -/
theorem mono {lo' hi' : Nat} (changed : ChangedWithin lo hi m m')
    (lower : lo' ≤ lo) (upper : hi ≤ hi') : ChangedWithin lo' hi' m m' :=
  fun b outside => changed b (by omega)

theorem load8 (changed : ChangedWithin lo hi m m')
    (apart : a + 1 ≤ lo ∨ hi ≤ a) : m' a = m a :=
  changed a (by omega)

theorem load16 (changed : ChangedWithin lo hi m m')
    (apart : a + 2 ≤ lo ∨ hi ≤ a) : load16 m' a = load16 m a := by
  simp only [ByteMemory.load16, changed a (by omega), changed (a + 1) (by omega)]

theorem load32 (changed : ChangedWithin lo hi m m')
    (apart : a + 4 ≤ lo ∨ hi ≤ a) : load32 m' a = load32 m a := by
  simp only [ByteMemory.load32, changed.load16 (a := a) (by omega),
    changed.load16 (a := a + 2) (by omega)]

theorem load64 (changed : ChangedWithin lo hi m m')
    (apart : a + 8 ≤ lo ∨ hi ≤ a) : load64 m' a = load64 m a := by
  simp only [ByteMemory.load64, changed.load32 (a := a) (by omega),
    changed.load32 (a := a + 4) (by omega)]

end ChangedWithin

/-- A load depends on its own bytes only. -/
theorem load32_congr (same : ∀ i < 4, m' (a + i) = m (a + i)) :
    load32 m' a = load32 m a := by
  have byte0 : m' a = m a := same 0 (by decide)
  have byte1 : m' (a + 1) = m (a + 1) := same 1 (by decide)
  have byte2 : m' (a + 2) = m (a + 2) := same 2 (by decide)
  have byte3 : m' (a + 2 + 1) = m (a + 2 + 1) := same 3 (by decide)
  rw [load32, load32, load16, load16, load16, load16, byte0, byte1, byte2, byte3]

@[simp] theorem load32_store32 (v : BitVec 32) :
    load32 (store32 m a v) a = v := by
  have high : load16 (store32 m a v) (a + 2) = v.extractLsb' 16 16 :=
    load16_store16 _
  have low : load16 (store32 m a v) a = v.extractLsb' 0 16 := by
    have frame : ChangedWithin (a + 2) (a + 4) (store16 m a _) (store32 m a v) :=
      ChangedWithin.store16 _ (Nat.le_refl _) (Nat.le_refl _)
    rw [frame.load16 (by omega), load16_store16]
  rw [load32, low, high]
  exact append_halves 16 v

@[simp] theorem load64_store64 (v : BitVec 64) :
    load64 (store64 m a v) a = v := by
  have high : load32 (store64 m a v) (a + 4) = v.extractLsb' 32 32 :=
    load32_store32 _
  have low : load32 (store64 m a v) a = v.extractLsb' 0 32 := by
    have frame : ChangedWithin (a + 4) (a + 8) (store32 m a _) (store64 m a v) :=
      ChangedWithin.store32 _ (Nat.le_refl _) (Nat.le_refl _)
    rw [frame.load32 (by omega), load32_store32]
  rw [load64, low, high]
  exact append_halves 32 v

/-! ## Stores apart from a load -/

section Apart

variable (m a)

theorem store16_apart (v : BitVec 16) (apart : a + 1 ≤ b ∨ b + 2 ≤ a) :
    store16 m b v a = m a :=
  (ChangedWithin.store16 v (Nat.le_refl b) (Nat.le_refl _)).load8 apart

theorem store32_apart (v : BitVec 32) (apart : a + 1 ≤ b ∨ b + 4 ≤ a) :
    store32 m b v a = m a :=
  (ChangedWithin.store32 v (Nat.le_refl b) (Nat.le_refl _)).load8 apart

theorem load16_store8_apart (v : BitVec 8) (apart : a + 2 ≤ b ∨ b + 1 ≤ a) :
    load16 (store8 m b v) a = load16 m a :=
  (ChangedWithin.store8 v (Nat.le_refl b) (Nat.le_refl _)).load16 apart

theorem load16_store16_apart (v : BitVec 16) (apart : a + 2 ≤ b ∨ b + 2 ≤ a) :
    load16 (store16 m b v) a = load16 m a :=
  (ChangedWithin.store16 v (Nat.le_refl b) (Nat.le_refl _)).load16 apart

theorem load32_store8_apart (v : BitVec 8) (apart : a + 4 ≤ b ∨ b + 1 ≤ a) :
    load32 (store8 m b v) a = load32 m a :=
  (ChangedWithin.store8 v (Nat.le_refl b) (Nat.le_refl _)).load32 apart

theorem load32_store16_apart (v : BitVec 16) (apart : a + 4 ≤ b ∨ b + 2 ≤ a) :
    load32 (store16 m b v) a = load32 m a :=
  (ChangedWithin.store16 v (Nat.le_refl b) (Nat.le_refl _)).load32 apart

theorem load32_store32_apart (v : BitVec 32) (apart : a + 4 ≤ b ∨ b + 4 ≤ a) :
    load32 (store32 m b v) a = load32 m a :=
  (ChangedWithin.store32 v (Nat.le_refl b) (Nat.le_refl _)).load32 apart

theorem load32_store64_apart (v : BitVec 64) (apart : a + 4 ≤ b ∨ b + 8 ≤ a) :
    load32 (store64 m b v) a = load32 m a :=
  (ChangedWithin.store64 v (Nat.le_refl b) (Nat.le_refl _)).load32 apart

theorem load64_store32_apart (v : BitVec 32) (apart : a + 8 ≤ b ∨ b + 4 ≤ a) :
    load64 (store32 m b v) a = load64 m a :=
  (ChangedWithin.store32 v (Nat.le_refl b) (Nat.le_refl _)).load64 apart

theorem load64_store64_apart (v : BitVec 64) (apart : a + 8 ≤ b ∨ b + 8 ≤ a) :
    load64 (store64 m b v) a = load64 m a :=
  (ChangedWithin.store64 v (Nat.le_refl b) (Nat.le_refl _)).load64 apart

end Apart

/-! ## Arrays of words -/

/-- An array of `count` words from `base` on. -/
def WordsAt (m : Memory) (base count : Nat) (word : Nat → BitVec 32) : Prop :=
  ∀ i < count, load32 m (base + 4 * i) = word i

namespace WordsAt

variable {base count : Nat} {word : Nat → BitVec 32}

theorem zero (m : Memory) (base : Nat) (word : Nat → BitVec 32) :
    WordsAt m base 0 word :=
  fun i impossible => absurd impossible (Nat.not_lt_zero i)

/-- Storing the next word. -/
theorem store32 (words : WordsAt m base count word) {v : BitVec 32}
    (next : v = word count) :
    WordsAt (store32 m (base + 4 * count) v) base (count + 1) word := by
  intro i bound
  rcases Nat.lt_succ_iff_lt_or_eq.mp bound with earlier | last
  · rw [load32_store32_apart _ _ _ (by omega)]
    exact words i earlier
  · subst last
    rw [load32_store32, next]

theorem changed (words : WordsAt m base count word) (change : ChangedWithin lo hi m m')
    (apart : base + 4 * count ≤ lo ∨ hi ≤ base) : WordsAt m' base count word := by
  intro i bound
  rw [change.load32 (by omega)]
  exact words i bound

end WordsAt

/-! ## Single bits -/

/-- The lowest bit of a word is that of its first byte. -/
theorem load32_bit (m : Memory) (a : Nat) :
    (load32 m a).getLsbD 0 = (m a).getLsbD 0 := by
  rw [load32, load16, load16, BitVec.getLsbD_append, if_pos (by decide),
    BitVec.getLsbD_append, if_pos (by decide)]

theorem and_one_eq_zero_iff {w : Nat} (v : BitVec (w + 1)) :
    v &&& 1#(w + 1) = 0#(w + 1) ↔ v.getLsbD 0 = false := by
  constructor
  · intro zero
    have bit := congrArg (fun u => u.getLsbD 0) zero
    simpa using bit
  · intro clear
    apply BitVec.eq_of_getLsbD_eq
    intro i bound
    cases i with
    | zero => simpa using clear
    | succ i => simp

/-- A wide word is zero when both halves are. -/
theorem load64_eq_zero_iff (m : Memory) (a : Nat) :
    load64 m a = 0#64 ↔ load32 m a ||| load32 m (a + 4) = 0#32 := by
  rw [load64, BitVec.or_eq_zero_iff]
  generalize load32 m (a + 4) = high
  generalize load32 m a = low
  constructor
  · intro zero
    constructor
    · have part := congrArg (BitVec.extractLsb' 0 32) zero
      rwa [BitVec.extractLsb'_append_eq_right] at part
    · have part := congrArg (BitVec.extractLsb' 32 32) zero
      rwa [BitVec.extractLsb'_append_eq_left] at part
  · rintro ⟨rfl, rfl⟩
    rfl

end ByteMemory
