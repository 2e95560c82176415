/-
Module: Os88.Loader.BootBlock
Purpose: Two boots with the same answers of the BIOS from different contents of
  RAM: what `kernel_main` reads from `kernel_info_block`.
Trusted boundary: the BIOS writes its answers and nothing else.  The stack and the
  variables in the loader itself are left out, and so is what the kernel does before
  the first line of `kernel_main`, which leaves the block alone.
Main exports: Bios, loadKernel, Boots, SameBlock, bootBlock_iff
-/
import Os88.Loader.EntryCount
import Os88.Loader.IdentityMap
import Os88.Loader.ModeSearch

namespace Os88.Loader

open Boot
open ByteMemory

/-- The answers of the BIOS. -/
structure Bios where
  /-- `int 0x10` with 4F00, unless it fails -/
  controllerInfo : Option (Nat → BitVec 8)
  /-- `int 0x15` with E820 -/
  replies : List Reply
  /-- `int 0x13` with 8: `cx` and `dh` -/
  driveParameters : Option (BitVec 16 × BitVec 8)
  /-- `int 0x13` with 2: 120 sectors from `ch`, `cl` and `dh` on -/
  readSectors : BitVec 8 → BitVec 8 → BitVec 8 → Option (Nat → BitVec 8)
  /-- `int 0x10` with 4F01 -/
  modeInfo : ModeInfos

/-- The block is preset with "VBE2". -/
def GetVesaControllerInfo (bios : Bios) (memory : Memory) : Memory :=
  let memory := store8 (store8 (store8 (store8 memory VESAControllerInfo 0x56#8)
    (VESAControllerInfo + 1) 0x42#8) (VESAControllerInfo + 2) 0x45#8)
    (VESAControllerInfo + 3) 0x32#8
  match bios.controllerInfo with
  | some bytes => storeBytes memory VESAControllerInfo 512 bytes
  | none => memory

structure Chs where
  cyl : BitVec 8
  head : BitVec 8
  sect : BitVec 8

/-- A division by zero is a fault. -/
def getchs (sectorsPerTrack numHeads ax : BitVec 16) : Option Chs :=
  if sectorsPerTrack = 0 ∨ numHeads = 0 then none
  else
    let track := ax / sectorsPerTrack
    some
      { cyl := (track / numHeads).setWidth 8
        head := (track % numHeads).setWidth 8
        sect := (ax % sectorsPerTrack + 1).setWidth 8 }

/-- Both parts of the kernel, unless the loader ends at `disk_error`. -/
def loadKernel (bios : Bios) (memory : Memory) : Option Memory := do
  let (cx, dh) ← bios.driveParameters
  let first ← bios.readSectors 0 4 0
  let chs ← getchs (cx &&& 0x3F#16) (dh.setWidth 16 + 1) 123
  let second ← bios.readSectors chs.cyl chs.sect chs.head
  return storeBytes (storeBytes memory 0x9000 (512 * 120) first) 0x18000 (512 * 120) second

/-- A boot from `ram` that reaches the kernel, with the memory when `do_e820`
starts, when `switch_video_mode` starts, and in the kernel. -/
structure Boots (bios : Bios) (ram atE820 atSearch atKernel : Memory) : Prop where
  captured : ∃ fuel,
    saveAvailableVideoModes fuel (GetVesaControllerInfo bios ram) = some atE820
  loaded : (doE820 bios.replies atE820).bind (loadKernel bios) = some atSearch
  entered : ∃ fuel memory returnAddress eax n s,
    switchVideoMode bios.modeInfo fuel atSearch = some memory ∧
      run returnAddress n (beginPm eax memory) = some s ∧ s.label = .kernel ∧
      s.memory = atKernel

/-- What `kernel_main` reads is the same in both, and the count is the number of
entries that the loader has stored. -/
structure SameBlock (replies : List Reply) (m m' : Memory) : Prop where
  count : noOfMemoryEntries m 0x8200 = noOfMemoryEntries m' 0x8200
  map : memoryEntries m 0x8200 = memoryEntries m' 0x8200
  mode : currentModeInfo m 0x8200 = currentModeInfo m' 0x8200
  stored : (noOfMemoryEntries m 0x8200).toNat = (storedEntries replies).length

/-! ## What one boot leaves in the block -/

section OneBoot

variable {bios : Bios} {ram atE820 atSearch atKernel : Memory}

/-- The first call writes to the controller information block. -/
theorem GetVesaControllerInfo_changed (bios : Bios) (m : Memory) :
    ChangedWithin 0x8200 0x8400 m (GetVesaControllerInfo bios m) := by
  have preset : ChangedWithin 0x8200 0x8400 m (store8 (store8 (store8 (store8 m
      VESAControllerInfo 0x56#8) (VESAControllerInfo + 1) 0x42#8)
      (VESAControllerInfo + 2) 0x45#8) (VESAControllerInfo + 3) 0x32#8) :=
    (((ChangedWithin.store8 _ (by decide) (by decide)).trans
      (ChangedWithin.store8 _ (by decide) (by decide))).trans
      (ChangedWithin.store8 _ (by decide) (by decide))).trans
      (ChangedWithin.store8 _ (by decide) (by decide))
  rw [GetVesaControllerInfo]
  cases bios.controllerInfo with
  | none => exact preset
  | some bytes => exact preset.trans (ChangedWithin.storeBytes bytes (by decide) (by decide))

theorem loadKernel_changed {m m' : Memory} (ran : loadKernel bios m = some m') :
    ChangedWithin 0x9000 0x27000 m m' := by
  unfold loadKernel at ran
  rcases Option.bind_eq_some_iff.mp ran with ⟨_, _, ran⟩
  rcases Option.bind_eq_some_iff.mp ran with ⟨first, _, ran⟩
  rcases Option.bind_eq_some_iff.mp ran with ⟨_, _, ran⟩
  rcases Option.bind_eq_some_iff.mp ran with ⟨second, _, ran⟩
  obtain rfl := Option.some.inj ran
  exact (ChangedWithin.storeBytes first (by decide) (by decide)).trans
    (ChangedWithin.storeBytes second (by decide) (by decide))

namespace Boots

/-- Behind `do_e820` the count and the address stay. -/
theorem handed (boots : Boots bios ram atE820 atSearch atKernel) :
    ∃ s, Counts atE820 (storedEntries bios.replies).length s ∧
      ∀ a, 0x8602 ≤ a → a < 0x860A →
        atKernel a = store32 (store16 s.memory 0x8602 s.bp) 0x8606 0x30000 a := by
  rcases Option.bind_eq_some_iff.mp boots.loaded with ⟨middle, collected, loaded⟩
  rcases doE820_counts collected with ⟨s, rfl, counts⟩
  rcases boots.entered with ⟨fuel, memory, returnAddress, eax, n, cpu, switched, ran, -, rfl⟩
  refine ⟨s, counts, fun a lower upper => ?_⟩
  rw [beginPm_below ran upper, switchVideoMode_changed switched a (Or.inr lower),
    loadKernel_changed loaded a (Or.inl (by omega))]

/-- The count is the number of stored entries exactly when the word behind the
stored one already was its upper half. -/
theorem count_iff (boots : Boots bios ram atE820 atSearch atKernel) :
    (noOfMemoryEntries atKernel 0x8200).toNat = (storedEntries bios.replies).length ↔
      (load16 atE820 0x8604).toNat = (storedEntries bios.replies).length / 65536 := by
  rcases boots.handed with ⟨s, counts, kept⟩
  have read : noOfMemoryEntries atKernel 0x8200 = noOfMemoryEntries
      (store32 (store16 s.memory 0x8602 s.bp) 0x8606 0x30000) 0x8200 :=
    load32_congr fun i inside => kept _ (by omega) (by omega)
  have low : s.bp.toNat = (storedEntries bios.replies).length % 65536 := by
    rw [counts.bp, BitVec.toNat_ofNat]
  have upper : load16 s.memory 0x8604 = load16 atE820 0x8604 :=
    counts.frame.load16 (Or.inl (by decide))
  rw [read, noOfMemoryEntries_toNat, low, upper]
  omega

theorem memoryEntries_eq (boots : Boots bios ram atE820 atSearch atKernel) :
    memoryEntries atKernel 0x8200 = 0x30000#32 := by
  rcases boots.handed with ⟨s, -, kept⟩
  have read : memoryEntries atKernel 0x8200 = memoryEntries
      (store32 (store16 s.memory 0x8602 s.bp) 0x8606 0x30000) 0x8200 :=
    load32_congr fun i inside => kept _ (by omega) (by omega)
  exact read.trans (memoryEntries_stored s.memory s.bp)

/-- The information block is the one that the table leads to. -/
theorem comesTo (boots : Boots bios ram atE820 atSearch atKernel) :
    ComesTo bios.modeInfo atSearch (currentModeInfo atKernel 0x8200) := by
  rcases boots.entered with ⟨fuel, memory, returnAddress, eax, n, cpu, switched, ran, -, rfl⟩
  have kept : currentModeInfo cpu.memory 0x8200 = currentModeInfo memory 0x8200 := by
    apply List.map_congr_left
    intro i member
    have inside : i < 256 := List.mem_range.mp member
    exact beginPm_below ran (by omega)
  rw [kept]
  exact switchVideoMode_comesTo switched

/-- The modes in the table before `do_e820` are still there when the search
starts. -/
theorem modes (boots : Boots bios ram atE820 atSearch atKernel)
    {modes : List (BitVec 16)} (listed : ModesAt atE820 VbeModeList (modes ++ [0xFFFF#16]))
    (short : modes.length ≤ 128) : ModesAt atSearch VbeModeList (modes ++ [0xFFFF#16]) := by
  rcases Option.bind_eq_some_iff.mp boots.loaded with ⟨middle, collected, loaded⟩
  rcases doE820_counts collected with ⟨s, rfl, counts⟩
  have room : VbeModeList + 2 * (modes ++ [0xFFFF#16]).length ≤ 0x8602 := by
    rw [List.length_append]
    show 0x8400 + 2 * (modes.length + 1) ≤ 0x8602
    omega
  refine ((listed.changed counts.frame ?_).changed (stored_changed s.memory s.bp)
    (Or.inl room)).changed (loadKernel_changed loaded) (Or.inl (by omega))
  exact Or.inl (Nat.le_trans room (by decide))

end Boots

end OneBoot

/-! ## Two boots -/

section TwoBoots

variable {bios : Bios} {ram atE820 atSearch atKernel : Memory}
  {ram' atE820' atSearch' atKernel' : Memory}

theorem sameBlock_iff (first : Boots bios ram atE820 atSearch atKernel)
    (second : Boots bios ram' atE820' atSearch' atKernel') :
    SameBlock bios.replies atKernel atKernel' ↔
      ((load16 atE820 0x8604).toNat = (storedEntries bios.replies).length / 65536 ∧
        (load16 atE820' 0x8604).toNat = (storedEntries bios.replies).length / 65536) ∧
      ∃ info, ComesTo bios.modeInfo atSearch info ∧
        ComesTo bios.modeInfo atSearch' info := by
  rw [← first.count_iff, ← second.count_iff]
  constructor
  · intro same
    refine ⟨⟨same.stored, by rw [← same.count]; exact same.stored⟩, _, first.comesTo, ?_⟩
    rw [same.mode]
    exact second.comesTo
  · rintro ⟨⟨stored, stored'⟩, info, comes, comes'⟩
    refine ⟨BitVec.eq_of_toNat_eq (stored.trans stored'.symm), ?_, ?_, stored⟩
    · rw [first.memoryEntries_eq, second.memoryEntries_eq]
    · exact (first.comesTo.unique comes).trans (comes'.unique second.comesTo)

/-- Two boots whose tables hold the same modes, with nothing left over behind the
count, hand over the same block. -/
theorem sameBlock_of_table (first : Boots bios ram atE820 atSearch atKernel)
    (second : Boots bios ram' atE820' atSearch' atKernel')
    (few : (storedEntries bios.replies).length < 65536)
    (clear : load16 atE820 0x8604 = 0#16) (clear' : load16 atE820' 0x8604 = 0#16)
    {modes : List (BitVec 16)} {bytes : Nat → BitVec 8} (short : modes.length ≤ 128)
    (listed : ModesAt atE820 VbeModeList (modes ++ [0xFFFF#16]))
    (listed' : ModesAt atE820' VbeModeList (modes ++ [0xFFFF#16]))
    (leads : LeadsTo bios.modeInfo modes bytes) :
    SameBlock bios.replies atKernel atKernel' := by
  have zero : (storedEntries bios.replies).length / 65536 = 0 := Nat.div_eq_of_lt few
  rw [sameBlock_iff first second, clear, clear', zero]
  exact ⟨⟨rfl, rfl⟩, _, comesTo_of_table (first.modes listed short) short leads,
    comesTo_of_table (second.modes listed' short) short leads⟩

end TwoBoots

/-! ## A machine with one mode -/

/-- A list of one mode in the block itself, and the pointer to it. -/
def oneModeList (i : Nat) : BitVec 8 :=
  if i = 14 then 0x22#8
  else if i = 15 then 0x82#8
  else if i = 0x22 then 0x18#8
  else if i = 0x23 then 0x01#8
  else if i = 0x24 ∨ i = 0x25 then 0xFF#8
  else 0#8

/-- 1024 by 768 with 32 bits per pixel. -/
def oneModeInfo (i : Nat) : BitVec 8 :=
  if i = 19 then 0x04#8
  else if i = 21 then 0x03#8
  else if i = 25 then 0x20#8
  else 0#8

def oneMode : Bios where
  controllerInfo := some oneModeList
  replies := twoAnswers.replies
  driveParameters := some (18, 1)
  readSectors := fun _ _ _ => some fun _ => 0#8
  modeInfo := fun mode => if mode = 0x0118#16 then some oneModeInfo else none

def oneModeCaptured (ram : Memory) : Memory :=
  storeModes (GetVesaControllerInfo oneMode ram) VbeModeList [0x0118#16, 0xFFFF#16]

theorem oneMode_word (ram : Memory) {i : Nat} (inside : i + 1 < 512) :
    load16 (GetVesaControllerInfo oneMode ram) (VESAControllerInfo + i) =
      oneModeList (i + 1) ++ oneModeList i := by
  have byte : ∀ j < 512,
      GetVesaControllerInfo oneMode ram (VESAControllerInfo + j) = oneModeList j :=
    fun j small => storeBytes_inside oneModeList small
  rw [load16, Nat.add_assoc, byte (i + 1) inside, byte i (by omega)]

theorem oneMode_captured (ram : Memory) :
    saveAvailableVideoModes 2 (GetVesaControllerInfo oneMode ram) =
      some (oneModeCaptured ram) := by
  have offset := oneMode_word ram (show 14 + 1 < 512 by decide)
  have segment := oneMode_word ram (show 16 + 1 < 512 by decide)
  have first := oneMode_word ram (show 0x22 + 1 < 512 by decide)
  have last := oneMode_word ram (show 0x24 + 1 < 512 by decide)
  have apart : load16 (store16 (GetVesaControllerInfo oneMode ram) 0x8400 0x0118#16)
      (VESAControllerInfo + 0x24) = oneModeList (0x24 + 1) ++ oneModeList 0x24 := by
    rw [load16_store16_apart _ _ _ (by decide), last]
  have registers : load16 (GetVesaControllerInfo oneMode ram) 0x820E = 0x8222#16 ∧
      load16 (GetVesaControllerInfo oneMode ram) 0x8210 = 0#16 :=
    ⟨offset.trans (by decide), segment.trans (by decide)⟩
  rw [saveAvailableVideoModes_eq, registers.1, registers.2]
  have reads : ReadsModes (0x8222#16 >>> 4) ([0x0118#16] ++ [0xFFFF#16])
      ⟨0#16 + (0x8222#16 &&& 0x000f#16), 0x8400#16, GetVesaControllerInfo oneMode ram⟩ :=
    ⟨⟨show (2#16 : BitVec 16) ≠ 0xFFFF#16 by decide, first.trans (by decide)⟩,
      ⟨show (4#16 : BitVec 16) ≠ 0xFFFF#16 by decide, apart.trans (by decide)⟩, trivial⟩
  refine ran_of_reads (by decide) ?_ ?_ reads
  · exact Nat.le_refl 0x8400
  · show 0x8400 + 2 * 2 ≤ 0x8500
    decide

/-- It boots from every RAM, with its mode. -/
theorem oneMode_boots (ram : Memory) : ∃ atSearch atKernel,
    Boots oneMode ram (oneModeCaptured ram) atSearch atKernel ∧
      ComesTo oneMode.modeInfo atSearch ((List.range 256).map oneModeInfo) := by
  rcases doE820_spec twoAnswers (oneModeCaptured ram) with ⟨s, collected, holds⟩
  have loaded : ∀ m, ∃ m', loadKernel oneMode m = some m' := fun m => ⟨_, rfl⟩
  rcases loaded (store32 (store16 s.memory 0x8602 s.bp) 0x8606 0x30000) with
    ⟨atSearch, loaded⟩
  have table : ModesAt atSearch VbeModeList ([] ++ 0x0118#16 :: [0xFFFF#16]) := by
    have captured : ModesAt (oneModeCaptured ram) VbeModeList [0x0118#16, 0xFFFF#16] :=
      modesAt_storeModes _ _ _
    exact ((captured.changed holds.frame (by decide)).changed
      (stored_changed s.memory s.bp) (by decide)).changed (loadKernel_changed loaded)
      (by decide)
  have answer : oneMode.modeInfo 0x0118#16 = some oneModeInfo := rfl
  have fits : InfoFits 1024 768 oneModeInfo := ⟨by decide, by decide, by decide⟩
  have first : FirstFit oneMode.modeInfo 1024 768 [] 0x0118#16 (.start atSearch) :=
    firstFit_of_table table (show 0x8400 + 2 * 2 ≤ 0x8502 by decide) (by simp) (by decide)
      answer fits
  have found : Finds oneMode.modeInfo atSearch 0x0118#16 _ := Or.inl ⟨[], first, rfl⟩
  rcases found.switchVideoMode with ⟨fuel, switched⟩
  rcases reaches_kernel 0 0 (foundMode oneMode.modeInfo 0x0118#16 _) with
    ⟨n, cpu, ran, label⟩
  refine ⟨atSearch, cpu.memory, ⟨⟨2, oneMode_captured ram⟩, ?_, ?_⟩, _, _, found,
    currentModeInfo_answer answer _⟩
  · show (doE820 twoAnswers.replies (oneModeCaptured ram)).bind _ = _
    rw [collected]
    exact loaded
  · exact ⟨fuel, _, 0, 0, n, cpu, switched, ran, label, rfl⟩

/-- RAM with a byte of 1 where the upper half of the count is read. -/
def leftoverRam : Memory := store8 (fun _ => 0#8) 0x8604 1#8

theorem oneMode_upper (ram : Memory) :
    load16 (oneModeCaptured ram) 0x8604 = load16 ram 0x8604 := by
  have listed := storeModes_changed (GetVesaControllerInfo oneMode ram) VbeModeList
    [0x0118#16, 0xFFFF#16]
  rw [oneModeCaptured, listed.load16 (Or.inr (by decide)),
    (GetVesaControllerInfo_changed oneMode ram).load16 (Or.inr (by decide))]

end Os88.Loader
