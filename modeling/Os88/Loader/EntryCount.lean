/-
Module: Os88.Loader.EntryCount
Purpose: The number that `do_e820` stores in `mem_map_entries_count`, for any
  answers of the BIOS, also for more than its segment has room for.
Trusted boundary: none beyond Os88.Loader.E820
Main exports: collected, Counts, take_counts, e820lp_counts, doE820_counts
-/
import Os88.Loader.E820Handover

namespace Os88.Loader

open Boot
open ByteMemory

/-- The answers up to the one that ends the map. -/
def collected : List Reply → List Answer
  | .answer a :: replies => a :: if a.ebx = 0 then [] else collected replies
  | _ => []

/-- The entries that `do_e820` stores. -/
def storedEntries (replies : List Reply) : List MemoryMapEntry :=
  keptEntries (collected replies)

/-- The loader has stored so many entries, and changed nothing outside the segment
it stores them in. -/
structure Counts (before : Memory) (count : Nat) (s : E820) : Prop where
  bp : s.bp = BitVec.ofNat 16 count
  aligned : s.di.toNat % 8 = 0
  frame : ChangedWithin mapStart (mapStart + 0x10000) before s.memory

section Slots

variable {before : Memory} {count : Nat} {s : E820} {a : Answer}

/-- The fields of a record lie one behind the other, or apart at the two ends of
the segment. -/
structure Slots (s : E820) : Prop where
  slot12 : s.slot 12 = s.slot 8 + 4
  slot20 : s.slot 20 = s.slot 16 + 4
  first : s.slot 0 + 8 ≤ s.slot 8 ∨ s.slot 8 + 8 ≤ s.slot 0
  second : s.slot 8 + 8 ≤ s.slot 16 ∨ s.slot 16 + 8 ≤ s.slot 8
  inside : ∀ offset ∈ [0, 8, 16], mapStart ≤ s.slot offset ∧
    s.slot offset + 8 ≤ mapStart + 0x10000

theorem slots_of_aligned (aligned : s.di.toNat % 8 = 0) : Slots s := by
  have place : ∀ offset : BitVec 16, s.slot offset =
      0x30000 + (s.di.toNat + offset.toNat) % 65536 := fun offset => by
    rw [E820.slot, BitVec.toNat_add]
  have slot0 : s.slot 0 = 0x30000 + (s.di.toNat + 0) % 65536 := place 0
  have slot8 : s.slot 8 = 0x30000 + (s.di.toNat + 8) % 65536 := place 8
  have slot12 : s.slot 12 = 0x30000 + (s.di.toNat + 12) % 65536 := place 12
  have slot16 : s.slot 16 = 0x30000 + (s.di.toNat + 16) % 65536 := place 16
  have slot20 : s.slot 20 = 0x30000 + (s.di.toNat + 20) % 65536 := place 20
  refine ⟨by omega, by omega, by omega, by omega, ?_⟩
  simp only [List.mem_cons, List.not_mem_nil, or_false, mapStart]
  rintro offset (rfl | rfl | rfl)
  · omega
  · omega
  · omega

/-- What the BIOS has written is there when the loader tests it. -/
theorem record_reads (slots : Slots s) (a : Answer) :
    (a.size ≠ .none → load64 (s.preset.record a).memory (s.slot 8) = a.length) ∧
    (a.size = .extended → load32 (s.preset.record a).memory (s.slot 20) = a.attrib) := by
  have second := slots.second
  have slot20 := slots.slot20
  unfold E820.record
  cases size : a.size with
  | none => simp
  | basic =>
      refine ⟨fun _ => ?_, by simp⟩
      show load64 (store32 (store64 _ (s.slot 8) a.length) (s.slot 16) a.type) _ = _
      rw [load64_store32_apart _ _ _ (by omega), load64_store64]
  | extended =>
      refine ⟨fun _ => ?_, fun _ => load32_store32 a.attrib⟩
      show load64 (store32 (store32 (store64 _ (s.slot 8) a.length) (s.slot 16) a.type)
        (s.slot 20) a.attrib) _ = _
      rw [load64_store32_apart _ _ _ (by omega), load64_store32_apart _ _ _ (by omega),
        load64_store64]

theorem preset_changed (slots : Slots s) :
    ChangedWithin mapStart (mapStart + 0x10000) s.memory s.preset.memory := by
  have slot16 := slots.inside 16 (by simp)
  have slot20 := slots.slot20
  exact ChangedWithin.store32 _ (by omega) (by omega)

theorem record_changed (slots : Slots s) (a : Answer) :
    ChangedWithin mapStart (mapStart + 0x10000) s.memory (s.record a).memory := by
  have slot0 := slots.inside 0 (by simp)
  have slot8 := slots.inside 8 (by simp)
  have slot16 := slots.inside 16 (by simp)
  have slot20 := slots.slot20
  have basic : ChangedWithin mapStart (mapStart + 0x10000) s.memory
      (store32 (store64 (store64 s.memory (s.slot 0) a.base) (s.slot 8) a.length)
        (s.slot 16) a.type) :=
    ((ChangedWithin.store64 _ (by omega) (by omega)).trans
      (ChangedWithin.store64 _ (by omega) (by omega))).trans
      (ChangedWithin.store32 _ (by omega) (by omega))
  unfold E820.record
  cases a.size with
  | none => exact fun _ _ => rfl
  | basic => exact basic
  | extended => exact basic.trans (ChangedWithin.store32 _ (by omega) (by omega))

theorem record_registers (s : E820) (a : Answer) :
    (s.record a).di = s.di ∧ (s.record a).bp = s.bp := by
  unfold E820.record
  cases a.size with
  | none => exact ⟨rfl, rfl⟩
  | basic => exact ⟨rfl, rfl⟩
  | extended => exact ⟨rfl, rfl⟩

/-- One call counts its answer, if it is to be kept. -/
theorem take_counts (counts : Counts before count s) (a : Answer) :
    Counts before (count + (keptEntries [a]).length) (s.take a) := by
  have slots := slots_of_aligned counts.aligned
  rcases record_registers s.preset a with ⟨di, bp⟩
  have slot : ∀ offset, (s.preset.record a).slot offset = s.slot offset := by
    intro offset
    rw [E820.slot, di]
    rfl
  have frame := (counts.frame.trans (preset_changed slots)).trans
    (record_changed (s := s.preset) ⟨slots.slot12, slots.slot20, slots.first, slots.second,
      slots.inside⟩ a)
  rcases record_reads slots a with ⟨length, attrib⟩
  rw [E820.take, jmpin_eq (by rw [slot, slot]; exact slots.slot12)
    (by rw [slot]; exact length) (by rw [slot]; exact attrib)]
  by_cases keep : a.Kept
  · have single : (keptEntries [a]).length = 1 := by simp [keptEntries, keep]
    rw [if_pos keep, single]
    refine ⟨?_, ?_, frame⟩
    · show (s.preset.record a).bp + 1 = _
      rw [bp, BitVec.ofNat_add, ← counts.bp]
      rfl
    · have aligned := counts.aligned
      show ((s.preset.record a).di + 24).toNat % 8 = 0
      rw [di, BitVec.toNat_add]
      show (s.di.toNat + 24) % 65536 % 8 = 0
      omega
  · have none : (keptEntries [a]).length = 0 := by simp [keptEntries, keep]
    rw [if_neg keep, none]
    exact ⟨bp.trans counts.bp, by rw [di]; exact counts.aligned, frame⟩

/-- The loop counts all answers that it collects. -/
theorem e820lp_counts {replies : List Reply} {s' : E820} (counts : Counts before count s)
    (ran : e820lp replies s = some s') :
    Counts before (count + (storedEntries replies).length) s' := by
  induction replies generalizing count s with
  | nil => cases ran
  | cons reply replies inductionHypothesis =>
      cases reply with
      | carry =>
          obtain rfl := Option.some.inj ran
          exact ⟨counts.bp, counts.aligned,
            counts.frame.trans (preset_changed (slots_of_aligned counts.aligned))⟩
      | answer a =>
          have taken := take_counts counts a
          rw [e820lp] at ran
          rw [storedEntries, collected, keptEntries_cons, List.length_append]
          by_cases final : a.ebx = 0
          · rw [if_pos final] at ran ⊢
            obtain rfl := Option.some.inj ran
            exact taken
          · rw [if_neg final] at ran ⊢
            rw [← Nat.add_assoc]
            exact inductionHypothesis taken ran

/-- Where `do_e820` does not stop, it stores the number of entries in 16 bits, and
the address of the map. -/
theorem doE820_counts {replies : List Reply} {memory memory' : Memory}
    (ran : doE820 replies memory = some memory') :
    ∃ s, memory' = store32 (store16 s.memory 0x8602 s.bp) 0x8606 0x30000 ∧
      Counts memory (storedEntries replies).length s := by
  have start : Counts memory 0 ⟨0, 0, memory⟩ := ⟨rfl, rfl, fun _ _ => rfl⟩
  cases replies with
  | nil => cases ran
  | cons reply replies =>
      cases reply with
      | carry => cases ran
      | answer a =>
          rw [doE820] at ran
          by_cases unsigned : a.eax ≠ SMAP
          · rw [if_pos unsigned] at ran
            cases ran
          by_cases final : a.ebx = 0
          · rw [if_neg unsigned, if_pos final] at ran
            cases ran
          rw [if_neg unsigned, if_neg final] at ran
          rcases Option.map_eq_some_iff.mp ran with ⟨s, looped, rfl⟩
          refine ⟨s, rfl, ?_⟩
          have counted := e820lp_counts (take_counts start a) looped
          rw [storedEntries, collected, if_neg final, keptEntries_cons, List.length_append]
          rwa [Nat.zero_add] at counted

end Slots

end Os88.Loader
