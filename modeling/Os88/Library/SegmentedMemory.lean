/-
Module: Os88.Library.SegmentedMemory
Purpose: Real-mode addresses with and without the address line A20, and a stack of
  words that lies over a memory without touching the rest of it.
Trusted boundary: none
Main exports: physical, physical_inj, readWord, writeWord, Below, Words, StackOn,
  StackOn.empty, StackOn.push, StackOn.pop, StackOn.store
-/
import Mathlib.Algebra.Group.Nat.Defs
import Os88.Library.ByteMemory

namespace SegmentedMemory

open ByteMemory

/-- The address of `seg:off`.  Without A20 it wraps around at 1 MB. -/
def physical (a20 : Bool) (seg off : BitVec 16) : Nat :=
  let linear := seg.toNat * 16 + off.toNat
  if a20 then linear else linear % 2 ^ 20

/-- Within a segment different offsets are different bytes. -/
theorem physical_inj {a20 : Bool} {seg off off' : BitVec 16}
    (same : physical a20 seg off = physical a20 seg off') : off = off' := by
  have bound := off.isLt
  have bound' := off'.isLt
  apply BitVec.eq_of_toNat_eq
  cases a20 with
  | true =>
      simp only [physical, if_true] at same
      omega
  | false =>
      simp only [physical, Bool.false_eq_true, if_false] at same
      omega

/-! ## Words behind offsets -/

section Stack

variable (address : BitVec 16 → Nat)

/-- The two bytes of a word, the lower one first.  The offset of the second wraps
around at the end of the segment. -/
def readWord (m : Memory) (off : BitVec 16) : BitVec 16 :=
  m (address (off + 1#16)) ++ m (address off)

def writeWord (m : Memory) (off v : BitVec 16) : Memory :=
  store8 (store8 m (address off) (v.extractLsb' 0 8)) (address (off + 1#16))
    (v.extractLsb' 8 8)

/-- One of the `n` bytes below the offset `top`. -/
def Below (top : BitVec 16) (n a : Nat) : Prop :=
  ∃ k, 1 ≤ k ∧ k ≤ n ∧ a = address (top - BitVec.ofNat 16 k)

/-- The words lie one above the other, the last of them just below `top`. -/
def Words (top : BitVec 16) (m : Memory) : List (BitVec 16) → Prop
  | [] => True
  | w :: words =>
      readWord address m (top - BitVec.ofNat 16 (2 * (words.length + 1))) = w ∧
        Words top m words

/-- A memory that holds a stack in the `depth` bytes below `top`, and in all other
places what `base` holds. -/
structure StackOn (base : Memory) (top : BitVec 16) (depth : Nat) (words : List (BitVec 16))
    (m : Memory) : Prop where
  words : Words address top m words
  outside : ∀ a, ¬ Below address top depth a → m a = base a

variable {address} {base m m' : Memory} {top v : BitVec 16} {depth : Nat}
  {words : List (BitVec 16)}

theorem readWord_writeWord (injective : ∀ off off', address off = address off' → off = off')
    (off v : BitVec 16) : readWord address (writeWord address m off v) off = v := by
  have next : address off ≠ address (off + 1#16) := by
    intro same
    have equal := congrArg BitVec.toNat (injective _ _ same)
    rw [BitVec.toNat_add, BitVec.toNat_ofNat] at equal
    omega
  rw [readWord, writeWord, store8_self, store8_of_ne _ next, store8_self]
  exact append_halves 8 v

/-- Two bytes at different depths. -/
theorem address_ne (injective : ∀ off off', address off = address off' → off = off')
    {k k' : Nat} (above : 1 ≤ k) (deeper : k < k') (small : k' ≤ 2 ^ 16) :
    address (top - BitVec.ofNat 16 k) ≠ address (top - BitVec.ofNat 16 k') := by
  intro same
  have equal := congrArg BitVec.toNat (injective _ _ same)
  have bound := top.isLt
  rw [BitVec.toNat_sub, BitVec.toNat_sub, BitVec.toNat_ofNat, BitVec.toNat_ofNat] at equal
  omega

/-- The two bytes of the word at an even depth. -/
theorem next_offset (top : BitVec 16) (n : Nat) :
    top - BitVec.ofNat 16 (2 * (n + 1)) + 1#16 = top - BitVec.ofNat 16 (2 * n + 1) := by
  have bound := top.isLt
  apply BitVec.eq_of_toNat_eq
  simp only [BitVec.toNat_add, BitVec.toNat_sub, BitVec.toNat_ofNat]
  omega

theorem Words.congr (held : Words address top m words)
    (same : ∀ a, Below address top (2 * words.length) a → m' a = m a) :
    Words address top m' words := by
  induction words with
  | nil => trivial
  | cons w words inductionHypothesis =>
      have length : (w :: words).length = words.length + 1 := rfl
      refine ⟨?_, inductionHypothesis held.2 fun a below => ?_⟩
      · rw [readWord, next_offset, same _ ⟨_, by omega, by omega, rfl⟩,
          same _ ⟨_, by omega, by omega, rfl⟩, ← next_offset]
        exact held.1
      · rcases below with ⟨k, above, within, rfl⟩
        exact same _ ⟨k, above, by omega, rfl⟩

namespace StackOn

theorem empty (m : Memory) (top : BitVec 16) (depth : Nat) :
    StackOn address m top depth [] m :=
  ⟨trivial, fun _ _ => rfl⟩

theorem push (injective : ∀ off off', address off = address off' → off = off')
    (small : depth ≤ 2 ^ 16) (held : StackOn address base top depth words m)
    (room : 2 * (words.length + 1) ≤ depth) (v : BitVec 16) :
    StackOn address base top depth (v :: words)
      (writeWord address m (top - BitVec.ofNat 16 (2 * (words.length + 1))) v) := by
  refine ⟨⟨readWord_writeWord injective _ v, held.words.congr fun a below => ?_⟩,
    fun a outside => ?_⟩
  · rcases below with ⟨k, above, within, rfl⟩
    rw [writeWord, next_offset,
      store8_of_ne _ (address_ne injective above (by omega) (by omega)),
      store8_of_ne _ (address_ne injective above (by omega) (by omega))]
  · rw [writeWord, next_offset, store8_of_ne, store8_of_ne]
    · exact held.outside a outside
    · rintro rfl
      exact outside ⟨_, by omega, by omega, rfl⟩
    · rintro rfl
      exact outside ⟨_, by omega, by omega, rfl⟩

theorem pop {w : BitVec 16} (held : StackOn address base top depth (w :: words) m) :
    readWord address m (top - BitVec.ofNat 16 (2 * (words.length + 1))) = w ∧
      StackOn address base top depth words m :=
  ⟨held.words.1, held.words.2, held.outside⟩

/-- A byte outside the stack is stored in the memory below it. -/
theorem store (held : StackOn address base top depth words m)
    (room : 2 * words.length ≤ depth) {a : Nat} (outside : ¬ Below address top depth a)
    (ch : BitVec 8) :
    StackOn address (store8 base a ch) top depth words (store8 m a ch) := by
  refine ⟨held.words.congr fun b below => ?_, fun b elsewhere => ?_⟩
  · have ne : b ≠ a := by
      rintro rfl
      rcases below with ⟨k, above, within, rfl⟩
      exact outside ⟨k, above, by omega, rfl⟩
    exact store8_of_ne ch ne
  · by_cases here : b = a
    · subst here
      rw [store8_self, store8_self]
    · rw [store8_of_ne ch here, store8_of_ne ch here]
      exact held.outside b elsewhere

end StackOn

end Stack

end SegmentedMemory
