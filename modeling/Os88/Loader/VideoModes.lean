/-
Module: Os88.Loader.VideoModes
Purpose: `save_available_video_modes` of the second-stage loader: the list of
  VESA modes that it copies to `VbeModeList`, against the list that the pointer
  in the controller information block names.
Trusted boundary: `ds` is 0.  A word at the end of a segment is a fault, and a
  store into the 1024 bytes of the loader itself has no result.
Main exports: saveModesLoop, saveAvailableVideoModes, ModesAt, storeModes,
  splitAddress, CapturesModes, captures_modes_iff
-/
import Os88.Library.ByteMemory

namespace Os88.Loader

open ByteMemory

def VESAControllerInfo : Nat := 0x8200

def VbeModeList : Nat := 0x8400

/-- The registers of the loop and the memory. -/
structure SaveModes where
  di : BitVec 16
  bx : BitVec 16
  memory : Memory

/-- `.save_modes_loop` and `finished_mode_save`, for at most `fuel` words. -/
def saveModesLoop (es : BitVec 16) : Nat → SaveModes → Option Memory
  | 0, _ => none
  | fuel + 1, s =>
      if s.di = 0xFFFF#16 then none
      else if 0x7E00 ≤ s.bx.toNat ∧ s.bx.toNat < 0x8200 then none
      else
        let ax := load16 s.memory (16 * es.toNat + s.di.toNat)
        if ax = 0xFFFF#16 then some (store16 s.memory s.bx.toNat ax)
        else saveModesLoop es fuel
          ⟨s.di + 2, s.bx + 2, store16 s.memory s.bx.toNat ax⟩

/-- From `mov ax, word [VESAControllerInfo+14]` on. -/
def saveAvailableVideoModes (fuel : Nat) (memory : Memory) : Option Memory :=
  let ax := load16 memory (VESAControllerInfo + 14)
  let bx := ax >>> 4
  let dx := load16 memory (VESAControllerInfo + 16) + (ax &&& 0x000f#16)
  saveModesLoop bx fuel ⟨dx, BitVec.ofNat 16 VbeModeList, memory⟩

/-! ## Lists of modes in memory -/

/-- The words from an address on. -/
def ModesAt (m : Memory) (a : Nat) : List (BitVec 16) → Prop
  | [] => True
  | mode :: modes => load16 m a = mode ∧ ModesAt m (a + 2) modes

/-- Store words from an address on. -/
def storeModes (m : Memory) (a : Nat) : List (BitVec 16) → Memory
  | [] => m
  | mode :: modes => storeModes (store16 m a mode) (a + 2) modes

section Lists

variable {m m' : Memory} {a lo hi : Nat} {modes : List (BitVec 16)}

theorem ModesAt.changed (listed : ModesAt m a modes) (change : ChangedWithin lo hi m m')
    (apart : a + 2 * modes.length ≤ lo ∨ hi ≤ a) : ModesAt m' a modes := by
  induction modes generalizing a with
  | nil => exact trivial
  | cons mode modes inductionHypothesis =>
      rw [List.length_cons] at apart
      exact ⟨(change.load16 (by omega)).trans listed.1,
        inductionHypothesis listed.2 (by omega)⟩

theorem storeModes_changed (m : Memory) (a : Nat) (modes : List (BitVec 16)) :
    ChangedWithin a (a + 2 * modes.length) m (storeModes m a modes) := by
  induction modes generalizing m a with
  | nil => exact fun _ _ => rfl
  | cons mode modes inductionHypothesis =>
      rw [List.length_cons]
      exact (ChangedWithin.store16 mode (Nat.le_refl a) (by omega)).trans
        ((inductionHypothesis _ (a + 2)).mono (by omega) (by omega))

theorem modesAt_storeModes (m : Memory) (a : Nat) (modes : List (BitVec 16)) :
    ModesAt (storeModes m a modes) a modes := by
  induction modes generalizing m a with
  | nil => exact trivial
  | cons mode modes inductionHypothesis =>
      refine ⟨?_, inductionHypothesis _ (a + 2)⟩
      rw [storeModes, (storeModes_changed _ (a + 2) modes).load16 (Or.inl (Nat.le_refl _)),
        load16_store16]

end Lists

/-! ## The loop -/

section Loop

variable {es : BitVec 16} {s : SaveModes} {m' : Memory}

/-- The word that the next pass reads. -/
def SaveModes.word (es : BitVec 16) (s : SaveModes) : BitVec 16 :=
  load16 s.memory (16 * es.toNat + s.di.toNat)

/-- The state behind a pass that stored a word and goes on. -/
def SaveModes.next (s : SaveModes) (mode : BitVec 16) : SaveModes :=
  ⟨s.di + 2, s.bx + 2, store16 s.memory s.bx.toNat mode⟩

/-- The next pass meets no fault. -/
structure SaveModes.Passes (s : SaveModes) : Prop where
  source : s.di ≠ 0xFFFF#16
  target : ¬ (0x7E00 ≤ s.bx.toNat ∧ s.bx.toNat < 0x8200)

theorem saveModesLoop_last (passes : s.Passes) (last : s.word es = 0xFFFF#16)
    (fuel : Nat) :
    saveModesLoop es (fuel + 1) s =
      some (store16 s.memory s.bx.toNat 0xFFFF#16) := by
  rw [SaveModes.word] at last
  rw [saveModesLoop, if_neg passes.source, if_neg passes.target]
  simp only [last, if_true]

theorem saveModesLoop_more (passes : s.Passes) (more : s.word es ≠ 0xFFFF#16)
    (fuel : Nat) :
    saveModesLoop es (fuel + 1) s = saveModesLoop es fuel (s.next (s.word es)) := by
  rw [saveModesLoop, if_neg passes.source, if_neg passes.target]
  exact if_neg more

/-- A loop that ends has made a pass. -/
theorem passes_of_ran {fuel : Nat} (ran : saveModesLoop es fuel s = some m') :
    s.Passes ∧ ∃ rest, fuel = rest + 1 := by
  cases fuel with
  | zero => cases ran
  | succ rest =>
      rw [saveModesLoop] at ran
      split at ran
      · cases ran
      · rename_i source
        split at ran
        · cases ran
        · rename_i target
          exact ⟨⟨source, target⟩, rest, rfl⟩

/-- The loop never comes back to what it has stored: behind the top of the
segment it goes on at 0, and ends at the loader. -/
theorem saveModesLoop_keeps {fuel bound : Nat} (even : s.bx.toNat % 2 = 0)
    (behind : bound ≤ s.bx.toNat ∨ s.bx.toNat ≤ 0x7E00)
    (ran : saveModesLoop es fuel s = some m') :
    ∀ a, 0x8200 ≤ a → a < bound → m' a = s.memory a := by
  induction fuel generalizing s with
  | zero => cases ran
  | succ fuel inductionHypothesis =>
      intro a lower upper
      have passes := (passes_of_ran ran).1
      have target := passes.target
      have kept : ∀ v, store16 s.memory s.bx.toNat v a = s.memory a :=
        fun v => store16_apart _ _ v (by omega)
      by_cases last : s.word es = 0xFFFF#16
      · rw [saveModesLoop_last passes last] at ran
        obtain rfl := Option.some.inj ran
        exact kept _
      · rw [saveModesLoop_more passes last] at ran
        have next : (s.next (s.word es)).bx.toNat = (s.bx.toNat + 2) % 65536 :=
          BitVec.toNat_add _ _
        have bx := s.bx.isLt
        rw [inductionHypothesis (by omega) (by omega) ran a lower upper]
        exact kept _

/-- The word that a pass stores is still there when the loop ends. -/
theorem saveModesLoop_stored {fuel : Nat} (even : s.bx.toNat % 2 = 0)
    (table : 0x8400 ≤ s.bx.toNat) (ran : saveModesLoop es fuel s = some m') :
    load16 m' s.bx.toNat = s.word es := by
  obtain ⟨passes, rest, rfl⟩ := passes_of_ran ran
  by_cases last : s.word es = 0xFFFF#16
  · rw [saveModesLoop_last passes last] at ran
    obtain rfl := Option.some.inj ran
    rw [load16_store16, last]
  · rw [saveModesLoop_more passes last] at ran
    have next : (s.next (s.word es)).bx.toNat = (s.bx.toNat + 2) % 65536 :=
      BitVec.toNat_add _ _
    have bx := s.bx.isLt
    have kept : ∀ a, 0x8200 ≤ a → a < s.bx.toNat + 2 →
        m' a = (s.next (s.word es)).memory a :=
      saveModesLoop_keeps (by omega) (by omega) ran
    rw [load16, kept (s.bx.toNat + 1) (by omega) (by omega),
      kept s.bx.toNat (by omega) (by omega)]
    exact load16_store16 _

/-- The words that the loop reads are those of the list, each in the memory that
already has the words before it in the table. -/
def ReadsModes (es : BitVec 16) : List (BitVec 16) → SaveModes → Prop
  | [], _ => True
  | mode :: modes, s =>
      (s.di ≠ 0xFFFF#16 ∧ s.word es = mode) ∧ ReadsModes es modes (s.next mode)

/-- A loop that leaves a list in the table has read it. -/
theorem reads_of_ran {modes : List (BitVec 16)} (listed : 0xFFFF#16 ∉ modes)
    (even : s.bx.toNat % 2 = 0) (table : 0x8400 ≤ s.bx.toNat)
    (room : s.bx.toNat + 2 * (modes.length + 1) ≤ 0x8500) {fuel : Nat}
    (ran : saveModesLoop es fuel s = some m')
    (stored : ModesAt m' s.bx.toNat (modes ++ [0xFFFF#16])) :
    ReadsModes es (modes ++ [0xFFFF#16]) s := by
  have word := saveModesLoop_stored even table ran
  have passes := (passes_of_ran ran).1
  induction modes generalizing s fuel with
  | nil => exact ⟨⟨passes.source, word.symm.trans stored.1⟩, trivial⟩
  | cons mode modes inductionHypothesis =>
      rw [List.length_cons] at room
      rw [List.mem_cons, not_or] at listed
      have read : s.word es = mode := word.symm.trans stored.1
      obtain ⟨-, rest, rfl⟩ := passes_of_ran ran
      rw [saveModesLoop_more passes (by rw [read]; exact Ne.symm listed.1), read] at ran
      have next : (s.next mode).bx.toNat = s.bx.toNat + 2 := by
        show (s.bx.toNat + 2) % 65536 = s.bx.toNat + 2
        omega
      have tail : ModesAt m' (s.next mode).bx.toNat (modes ++ [0xFFFF#16]) := by
        rw [next]
        exact stored.2
      exact ⟨⟨passes.source, read⟩, inductionHypothesis listed.2 (by omega) (by omega)
        (by omega) ran tail (saveModesLoop_stored (by omega) (by omega) ran)
        (passes_of_ran ran).1⟩

/-- A loop that reads a list stores it and ends. -/
theorem ran_of_reads {modes : List (BitVec 16)} (listed : 0xFFFF#16 ∉ modes)
    (table : 0x8400 ≤ s.bx.toNat)
    (room : s.bx.toNat + 2 * (modes.length + 1) ≤ 0x8500)
    (reads : ReadsModes es (modes ++ [0xFFFF#16]) s) :
    saveModesLoop es (modes.length + 1) s =
      some (storeModes s.memory s.bx.toNat (modes ++ [0xFFFF#16])) := by
  induction modes generalizing s with
  | nil =>
      have passes : s.Passes := ⟨reads.1.1, by omega⟩
      exact saveModesLoop_last passes reads.1.2 0
  | cons mode modes inductionHypothesis =>
      rw [List.length_cons] at room
      rw [List.mem_cons, not_or] at listed
      have passes : s.Passes := ⟨reads.1.1, by omega⟩
      have read := reads.1.2
      have next : (s.next mode).bx.toNat = s.bx.toNat + 2 := by
        show (s.bx.toNat + 2) % 65536 = s.bx.toNat + 2
        omega
      rw [List.length_cons, saveModesLoop_more passes (by rw [read]; exact Ne.symm listed.1),
        read, inductionHypothesis listed.2 (by omega) (by omega) reads.2, next]
      rfl

end Loop

/-! ## The pointer -/

/-- The address that the loader makes of the pointer for word `i`: the two
16-bit words of the pointer in each other's place. -/
def splitAddress (offset segment i : Nat) : Nat :=
  16 * (offset / 16) + (segment + offset % 16 + 2 * i) % 65536

/-- The words of a list, read one after the other at the loader's addresses, each
in the memory that has the words before it in the table already. -/
def PointerReaches (m : Memory) (modes : List (BitVec 16)) : Prop :=
  ∀ i mode, modes[i]? = some mode →
    ((load16 m 0x8210).toNat + (load16 m 0x820E).toNat % 16 + 2 * i) % 65536 ≠ 65535 ∧
      load16 (storeModes m VbeModeList (modes.take i))
        (splitAddress (load16 m 0x820E).toNat (load16 m 0x8210).toNat i) = mode

/-- What the capture is for: the table has the whole list, and no other byte is
changed. -/
def CapturesModes (m : Memory) (modes : List (BitVec 16)) : Prop :=
  ∃ fuel m', saveAvailableVideoModes fuel m = some m' ∧
    modes.length + 1 ≤ 128 ∧ ModesAt m' VbeModeList (modes ++ [0xFFFF#16]) ∧
      ChangedWithin VbeModeList (VbeModeList + 2 * 128) m m'

section Pointer

variable {es : BitVec 16} {s : SaveModes}

theorem forall_getElem?_cons {α : Type} {x : α} {list : List α} {P : Nat → α → Prop} :
    (∀ i y, (x :: list)[i]? = some y → P i y) ↔
      P 0 x ∧ ∀ i y, list[i]? = some y → P (i + 1) y := by
  constructor
  · intro all
    exact ⟨all 0 x rfl, fun i y found => all (i + 1) y found⟩
  · rintro ⟨first, rest⟩ i y found
    cases i with
    | zero =>
        obtain rfl := Option.some.inj found
        exact first
    | succ i => exact rest i y found

/-- The words that are read, by their positions. -/
theorem readsModes_iff {modes : List (BitVec 16)}
    (room : s.bx.toNat + 2 * modes.length < 65536) :
    ReadsModes es modes s ↔ ∀ i mode, modes[i]? = some mode →
      (s.di.toNat + 2 * i) % 65536 ≠ 65535 ∧
        load16 (storeModes s.memory s.bx.toNat (modes.take i))
          (16 * es.toNat + (s.di.toNat + 2 * i) % 65536) = mode := by
  induction modes generalizing s with
  | nil => simp [ReadsModes]
  | cons mode modes inductionHypothesis =>
      rw [List.length_cons] at room
      have di := s.di.isLt
      have nextBx : (s.next mode).bx.toNat = s.bx.toNat + 2 := by
        show (s.bx.toNat + 2) % 65536 = s.bx.toNat + 2
        omega
      have nextDi : ∀ i, ((s.next mode).di.toNat + 2 * i) % 65536 =
          (s.di.toNat + 2 * (i + 1)) % 65536 := by
        intro i
        show ((s.di.toNat + 2) % 65536 + 2 * i) % 65536 = _
        omega
      have source : s.di ≠ 0xFFFF#16 ↔ (s.di.toNat + 2 * 0) % 65536 ≠ 65535 := by
        rw [not_iff_not, ← BitVec.toNat_inj]
        show s.di.toNat = 65535 ↔ _
        omega
      have address : 16 * es.toNat + s.di.toNat =
          16 * es.toNat + (s.di.toNat + 2 * 0) % 65536 := by omega
      rw [ReadsModes, forall_getElem?_cons, inductionHypothesis (by omega), source,
        SaveModes.word, address]
      simp only [nextDi, nextBx]
      rfl

/-- The registers that the loader makes of the pointer. -/
theorem pointer_registers (offset segment : BitVec 16) :
    (offset >>> 4).toNat = offset.toNat / 16 ∧
      (segment + (offset &&& 0x000f#16)).toNat =
        (segment.toNat + offset.toNat % 16) % 65536 := by
  have low : (offset &&& 0x000f#16).toNat = offset.toNat % 16 := by
    rw [BitVec.toNat_and]
    exact Nat.and_two_pow_sub_one_eq_mod offset.toNat 4
  constructor
  · rw [BitVec.toNat_ushiftRight, Nat.shiftRight_eq_div_pow]
  · rw [BitVec.toNat_add, low]

end Pointer

section Capture

variable {m : Memory} {modes : List (BitVec 16)}

theorem saveAvailableVideoModes_eq (fuel : Nat) (m : Memory) :
    saveAvailableVideoModes fuel m = saveModesLoop (load16 m 0x820E >>> 4) fuel
      ⟨load16 m 0x8210 + (load16 m 0x820E &&& 0x000f#16), 0x8400#16, m⟩ := rfl

/-- The loop starts at the loader's addresses. -/
theorem pointerReaches_iff (few : modes.length ≤ 128) :
    PointerReaches m modes ↔
      ReadsModes (load16 m 0x820E >>> 4) modes
        ⟨load16 m 0x8210 + (load16 m 0x820E &&& 0x000f#16), 0x8400#16, m⟩ := by
  rcases pointer_registers (load16 m 0x820E) (load16 m 0x8210) with ⟨es, di⟩
  have table : (0x8400#16).toNat = VbeModeList := rfl
  rw [readsModes_iff (by show 0x8400 + _ < _; omega), PointerReaches]
  simp only [es, di, table, splitAddress, Nat.mod_add_mod]

/-- The table has exactly the list, and nothing else is changed, exactly when the
list has its terminator within 128 words and the loader's addresses reach its
words. -/
theorem capturesModes_iff (listed : 0xFFFF#16 ∉ modes) :
    CapturesModes m modes ↔
      modes.length ≤ 127 ∧ PointerReaches m (modes ++ [0xFFFF#16]) := by
  constructor
  · rintro ⟨fuel, m', ran, few, stored, -⟩
    refine ⟨by omega, ?_⟩
    rw [pointerReaches_iff (by rw [List.length_append]; exact few)]
    exact reads_of_ran listed (by show 0x8400 % 2 = 0; decide) (Nat.le_refl _)
      (by show 0x8400 + _ ≤ _; omega) ran stored
  · rintro ⟨few, reaches⟩
    rw [pointerReaches_iff (by rw [List.length_append]; exact Nat.succ_le_succ few)]
      at reaches
    have ran := ran_of_reads listed (Nat.le_refl _) (by show 0x8400 + _ ≤ _; omega) reaches
    rw [← saveAvailableVideoModes_eq] at ran
    refine ⟨_, _, ran, by omega, modesAt_storeModes _ _ _, ?_⟩
    refine (storeModes_changed _ _ _).mono (Nat.le_refl _) ?_
    rw [List.length_append]
    show 0x8400 + 2 * (modes.length + 1) ≤ 0x8400 + 2 * 128
    omega

/-- The words of a list at the address that the pointer names. -/
structure ListAt (m : Memory) (modes : List (BitVec 16)) : Prop where
  words : ModesAt m (16 * (load16 m 0x8210).toNat + (load16 m 0x820E).toNat)
    (modes ++ [0xFFFF#16])
  terminated : 0xFFFF#16 ∉ modes

/-- For every pointer and list: the capture is right exactly when the list has its
terminator within 128 words and the loader's addresses reach its words. -/
theorem captures_modes_iff (list : ListAt m modes) :
    CapturesModes m modes ↔
      modes.length ≤ 127 ∧ PointerReaches m (modes ++ [0xFFFF#16]) :=
  capturesModes_iff list.terminated

theorem modesAt_getElem? {m : Memory} {a : Nat} {modes : List (BitVec 16)}
    (listed : ModesAt m a modes) {i : Nat} {mode : BitVec 16}
    (found : modes[i]? = some mode) : load16 m (a + 2 * i) = mode := by
  induction modes generalizing a i with
  | nil => cases found
  | cons first rest inductionHypothesis =>
      cases i with
      | zero =>
          obtain rfl := Option.some.inj found
          exact listed.1
      | succ i =>
          rw [← inductionHypothesis listed.2 found]
          congr 1
          omega

/-- A list of at most 127 modes in segment 0, apart from the table, is captured. -/
theorem captures_of_segment_zero (list : ListAt m modes)
    (segment : load16 m 0x8210 = 0#16) (few : modes.length ≤ 127)
    (apart : (load16 m 0x820E).toNat + 2 * (modes.length + 1) ≤ VbeModeList ∨
      VbeModeList + 2 * (modes.length + 1) ≤ (load16 m 0x820E).toNat) :
    CapturesModes m modes := by
  rw [capturesModes_iff list.terminated]
  refine ⟨few, fun i mode found => ?_⟩
  have short : i < modes.length + 1 := by
    have bound := (List.getElem?_eq_some_iff.mp found).1
    rwa [List.length_append] at bound
  have address : splitAddress (load16 m 0x820E).toNat 0 i =
      (load16 m 0x820E).toNat + 2 * i := by
    rw [splitAddress]
    omega
  have taken : ((modes ++ [0xFFFF#16]).take i).length ≤ modes.length + 1 := by
    rw [List.length_take]
    omega
  have listed := modesAt_getElem? list.words found
  rw [segment] at listed ⊢
  refine ⟨by show (0 + _ + _) % _ ≠ _; omega, ?_⟩
  rw [show (0#16).toNat = 0 from rfl, address,
    (storeModes_changed m VbeModeList _).load16 (by omega)]
  rw [← listed]
  congr 1
  show _ = 16 * 0 + _ + _
  omega

end Capture

/-- One mode at 0xC0000, and nothing else in memory but its pointer. -/
def romList : Memory := fun a =>
  if a = 0x8211 then 0xC0#8
  else if a = 0xC0000 then 0x18#8
  else if a = 0xC0001 then 0x01#8
  else if a = 0xC0002 ∨ a = 0xC0003 then 0xFF#8
  else 0#8

theorem romList_listed : ListAt romList [0x0118#16] :=
  ⟨⟨by decide, by decide, trivial⟩, by decide⟩

theorem captures_modes_iff_romList :
    CapturesModes romList [0x0118#16] ↔
      [0x0118#16].length ≤ 127 ∧ PointerReaches romList ([0x0118#16] ++ [0xFFFF#16]) :=
  captures_modes_iff romList_listed

/-- The loader looks for the list at 0xC000. -/
theorem romList_not_captured :
    ListAt romList [0x0118#16] ∧ ¬ CapturesModes romList [0x0118#16] := by
  refine ⟨romList_listed, ?_⟩
  rw [capturesModes_iff romList_listed.terminated]
  rintro ⟨-, reaches⟩
  have first := (reaches 0 0x0118#16 rfl).2
  exact absurd first (by decide)

end Os88.Loader
