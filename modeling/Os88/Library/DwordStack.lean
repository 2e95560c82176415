/-
Module: Os88.Library.DwordStack
Purpose: A stack of dwords in a memory of bytes that grows downwards from `top` and
  touches nothing else.
Trusted boundary: none
Main exports: Stacked, Stacked.congr, Grown, Grown.empty, Grown.push, Grown.pop,
  Grown.replace
-/
import Mathlib.Algebra.Group.Nat.Defs
import Os88.Library.ByteMemory

namespace DwordStack

open ByteMemory

/-- The dwords lie one above the other, the first of them at the address. -/
def Stacked (m : Memory) : Nat → List (BitVec 32) → Prop
  | _, [] => True
  | a, w :: words => load32 m a = w ∧ Stacked m (a + 4) words

variable {m m' base : Memory} {a low top : Nat} {sp w : BitVec 32} {words : List (BitVec 32)}

/-- A stack depends on its own bytes only. -/
theorem Stacked.congr (stacked : Stacked m a words)
    (same : ∀ b, a ≤ b → b < a + 4 * words.length → m' b = m b) : Stacked m' a words := by
  induction words generalizing a with
  | nil => trivial
  | cons w words inductionHypothesis =>
      rw [List.length_cons] at same
      refine ⟨?_, inductionHypothesis stacked.2 fun b lower upper => same b (by omega) (by omega)⟩
      rw [load32_congr fun i inside => same (a + i) (by omega) (by omega)]
      exact stacked.1

/-- A memory with a stack of the words from `sp` to `top`, and changes to `base` only between
`low` and `top`. -/
structure Grown (low top : Nat) (base : Memory) (words : List (BitVec 32)) (sp : BitVec 32)
    (m : Memory) : Prop where
  position : sp.toNat + 4 * words.length = top
  below : top < 2 ^ 32
  words : Stacked m sp.toNat words
  frame : ChangedWithin low top base m

theorem Grown.empty (low : Nat) (m : Memory) (sp : BitVec 32) : Grown low sp.toNat m [] sp m :=
  ⟨rfl, sp.isLt, trivial, fun _ _ => rfl⟩

theorem toNat_sub_four (sp : BitVec 32) (room : 4 ≤ sp.toNat) : (sp - 4).toNat = sp.toNat - 4 := by
  have bound := sp.isLt
  have four : (4 : BitVec 32).toNat = 4 := rfl
  rw [BitVec.toNat_sub, four]
  omega

theorem Grown.push (grown : Grown low top base words sp m) (w : BitVec 32)
    (room : low + 4 ≤ sp.toNat) :
    Grown low top base (w :: words) (sp - 4) (store32 m (sp - 4).toNat w) := by
  have lower := toNat_sub_four sp (by omega)
  have length := grown.position
  refine ⟨?_, grown.below, ⟨load32_store32 w, ?_⟩, grown.frame.trans ?_⟩
  · rw [lower, List.length_cons]
    omega
  · have position : (sp - 4).toNat + 4 = sp.toNat := by omega
    rw [position]
    exact grown.words.congr fun b above _ => store32_apart _ _ _ (Or.inr (by omega))
  · exact ChangedWithin.store32 w (by omega) (by omega)

theorem Grown.pop (grown : Grown low top base (w :: words) sp m) :
    load32 m sp.toNat = w ∧ Grown low top base words (sp + 4) m := by
  have length := grown.position
  have below := grown.below
  rw [List.length_cons] at length
  have position : (sp + 4).toNat = sp.toNat + 4 := by
    have four : (4 : BitVec 32).toNat = 4 := rfl
    rw [BitVec.toNat_add, four]
    omega
  refine ⟨grown.words.1, by omega, below, ?_, grown.frame⟩
  rw [position]
  exact grown.words.2

/-- Another memory with the same stack. -/
theorem Grown.replace (grown : Grown low top base words sp m)
    (same : ∀ b, sp.toNat ≤ b → b < top → m' b = m b) : Grown low top m' words sp m' := by
  have length := grown.position
  exact ⟨length, grown.below, grown.words.congr fun b lower upper => same b lower (by omega),
    fun _ _ => rfl⟩

end DwordStack
