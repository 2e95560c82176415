/-
Module: Os88.Boot.BootDisk
Purpose: Which disk `kernel_main` boots from, and on which machines it uses a
  driver that it has discarded.
Trusted boundary: none beyond Os88.Boot.KernelMain
Main exports: bootOrder, search, After, kernelMain_after, kernelMain_boots,
  kernelMain_runs_iff
-/
import Os88.Boot.KernelMain

namespace Os88.Boot

/-! ## The order of the search -/

section Order

variable (h : Hardware)

/-- The IDE drives that are not empty. -/
def ideDisks : List Disk :=
  if h.IdePresent then
    ([.primaryMaster, .primarySlave, .secondaryMaster, .secondarySlave].filter
      fun slot => !h.isEmpty slot).map .ide
  else []

def sataDisks : List Disk :=
  if h.AhciPresent then (List.range' 0 h.numDisks).map .sata else []

/-- The USB slots that are set. -/
def usbDisks : List Disk :=
  if h.EhciPresent then
    ((List.range' 0 127).filter h.massStorageDevices).map .usb
  else []

/-- All disks in the order in which they are tried. -/
def bootOrder : List Disk := ideDisks h ++ sataDisks h ++ usbDisks h

/-- Read the disks one after the other until the buffer shows the signature:
the disk, if any, and the buffer. -/
def search : List Disk → Sector → Option Disk × Sector
  | [], buffer => (none, buffer)
  | disk :: disks, buffer =>
      if signature (h.read disk buffer) = h.osSignature then
        (some disk, h.read disk buffer)
      else search disks (h.read disk buffer)

theorem search_append (first second : List Disk) (buffer : Sector) :
    search h (first ++ second) buffer =
      match search h first buffer with
      | (some disk, buffer) => (some disk, buffer)
      | (none, buffer) => search h second buffer := by
  induction first generalizing buffer with
  | nil => rfl
  | cons disk first inductionHypothesis =>
      rw [List.cons_append, search, search]
      by_cases found : signature (h.read disk buffer) = h.osSignature
      · rw [if_pos found, if_pos found]
      · rw [if_neg found, if_neg found, inductionHypothesis]

end Order

/-! ## The state between two disks -/

/-- A driver's pointer after the setup. -/
def Pointer.of (present : Prop) [Decidable present] : Pointer :=
  if present then .object else .null

/-- The state of `kernel_main` when the disks in the list have been tried. -/
structure After (h : Hardware) (disks : List Disk) (s : KernelMain) : Prop where
  ideDriver : s.ideDriver = Pointer.of h.IdePresent
  ahciDriver : s.ahciDriver = Pointer.of h.AhciPresent
  ehciDriver : s.ehciDriver = Pointer.of h.EhciPresent
  buffer : s.buffer = (search h disks h.block).2
  notFound : (search h disks h.block).1 = none → s.diskIndex = 0
  found : ∀ disk, (search h disks h.block).1 = some disk →
    s.diskIndex ≠ 0 ∧ (h.numDisks ≤ 32 → s.bootDisk = some disk)

section Search

variable {h : Hardware} {disks more : List Disk} {s : KernelMain}

/-- The index is 0 as long as nothing is found. -/
theorem After.diskIndex_iff (after : After h disks s) :
    s.diskIndex = 0 ↔ (search h disks h.block).1 = none := by
  constructor
  · intro zero
    cases result : (search h disks h.block).1 with
    | none => rfl
    | some disk => exact absurd zero (after.found disk result).1
  · exact after.notFound

/-- Trying one more disk. -/
theorem search_concat (missed : (search h disks h.block).1 = none) (disk : Disk) :
    search h (disks ++ [disk]) h.block =
      if signature (h.read disk (search h disks h.block).2) = h.osSignature then
        (some disk, h.read disk (search h disks h.block).2)
      else (none, h.read disk (search h disks h.block).2) := by
  rw [search_append]
  rcases result : search h disks h.block with ⟨found, buffer⟩
  rw [result] at missed
  obtain rfl : found = none := missed
  rfl

/-- The state after one more disk with the signature, whose index leads back to
it. -/
theorem After.matched (after : After h disks s) (missed : s.diskIndex = 0)
    {disk : Disk} {s' : KernelMain} (ide : s'.ideDriver = s.ideDriver)
    (ahci : s'.ahciDriver = s.ahciDriver) (ehci : s'.ehciDriver = s.ehciDriver)
    (read : s'.buffer = h.read disk s.buffer)
    (same : signature (h.read disk s.buffer) = h.osSignature)
    (index : s'.diskIndex ≠ 0) (leads : h.numDisks ≤ 32 → s'.bootDisk = some disk) :
    After h (disks ++ [disk]) s' := by
  have result := search_concat (after.diskIndex_iff.mp missed) disk
  rw [← after.buffer, if_pos same, ← read] at result
  refine ⟨ide.trans after.ideDriver, ahci.trans after.ahciDriver,
    ehci.trans after.ehciDriver, by rw [result], by simp [result], ?_⟩
  rw [result]
  rintro _ ⟨⟩
  exact ⟨index, leads⟩

/-- The state after one more disk without the signature. -/
theorem After.unmatched (after : After h disks s) (missed : s.diskIndex = 0)
    {disk : Disk} {s' : KernelMain} (ide : s'.ideDriver = s.ideDriver)
    (ahci : s'.ahciDriver = s.ahciDriver) (ehci : s'.ehciDriver = s.ehciDriver)
    (read : s'.buffer = h.read disk s.buffer)
    (other : signature (h.read disk s.buffer) ≠ h.osSignature)
    (index : s'.diskIndex = s.diskIndex) : After h (disks ++ [disk]) s' := by
  have result := search_concat (after.diskIndex_iff.mp missed) disk
  rw [← after.buffer, if_neg other, ← read] at result
  exact ⟨ide.trans after.ideDriver, ahci.trans after.ahciDriver,
    ehci.trans after.ehciDriver, by rw [result], fun _ => index.trans missed,
    by simp [result]⟩

/-- Once a disk is found the others are not tried. -/
theorem After.skipped (after : After h disks s) (found : s.diskIndex ≠ 0)
    (more : List Disk) : After h (disks ++ more) s := by
  have same : search h (disks ++ more) h.block = search h disks h.block := by
    rw [search_append]
    rcases result : search h disks h.block with ⟨_ | disk, buffer⟩
    · exact absurd (after.notFound (by rw [result])) found
    · rfl
  exact ⟨after.ideDriver, after.ahciDriver, after.ehciDriver,
    by rw [same, after.buffer], by rw [same]; exact after.notFound,
    by rw [same]; exact after.found⟩

theorem unlessFound_after {phase : KernelMain → Option KernelMain}
    (after : After h disks s)
    (search : s.diskIndex = 0 → ∃ s', phase s = some s' ∧ After h (disks ++ more) s') :
    ∃ s', unlessFound phase s = some s' ∧ After h (disks ++ more) s' := by
  by_cases missed : s.diskIndex = 0
  · rw [unlessFound, if_pos missed]
    exact search missed
  · exact ⟨s, if_neg missed, after.skipped missed more⟩

end Search

/-! ## The phases -/

section Phases

variable {h : Hardware} {disks : List Disk} {s : KernelMain}

theorem bootDisk_ide (index : s.diskIndex ≤ 4) : s.bootDisk = s.ideDisk := by
  rw [KernelMain.bootDisk, if_neg (by omega), if_neg (by omega)]

theorem bootDisk_sata {j : Nat} (index : s.diskIndex = 5 + j) (few : j < 32) :
    s.bootDisk = s.ahciDisk := by
  rw [KernelMain.bootDisk, if_neg (by omega), if_pos (by omega)]

theorem bootDisk_usb {i : Nat} (index : s.diskIndex = 0x81 + i) :
    s.bootDisk = some (.usb i) := by
  rw [KernelMain.bootDisk, if_pos (by omega), index, Nat.add_sub_cancel_left]

theorem Pointer.of_present {present : Prop} [Decidable present] (p : present) :
    Pointer.of present = .object := if_pos p

theorem Pointer.of_absent {present : Prop} [Decidable present] (p : ¬ present) :
    Pointer.of present = .null := if_neg p

/-- The setup keeps exactly the drivers whose controllers are there. -/
theorem setupDrivers_after (h : Hardware) :
    ∃ s, setupDrivers h (KernelMain.allocated h) = some s ∧ After h [] s := by
  refine ⟨{ KernelMain.allocated h with
    ideDriver := Pointer.of h.IdePresent
    ahciDriver := Pointer.of h.AhciPresent
    ehciDriver := Pointer.of h.EhciPresent }, ?_, rfl, rfl, rfl, rfl, fun _ => rfl, ?_⟩
  · by_cases ide : h.IdePresent <;> by_cases ahci : h.AhciPresent <;>
      by_cases ehci : h.EhciPresent <;>
      simp [setupDrivers, setupIde, setupAhci, setupEhci, KernelMain.allocated,
        Pointer.of, Pointer.access, ide, ahci, ehci]
  · rintro disk ⟨⟩

/-- The disk of an IDE slot, unless the slot is empty. -/
def slotDisk (h : Hardware) (slot : IdeSlot) : List Disk :=
  if h.isEmpty slot then [] else [.ide slot]

theorem probeIde_after (after : After h disks s) (present : h.IdePresent)
    (missed : s.diskIndex = 0) (slot : IdeSlot) (index : Nat) (lower : 1 ≤ index)
    (upper : index ≤ 4) :
    ∃ s', probeIde h slot index s = some s' ∧
      After h (disks ++ slotDisk h slot) s' := by
  have pointer : s.ideDriver = .object := by
    rw [after.ideDriver, Pointer.of_present present]
  by_cases empty : h.isEmpty slot = true
  · refine ⟨s, by simp [probeIde, pointer, Pointer.access, empty], ?_⟩
    simpa [slotDisk, empty] using after
  · have single : slotDisk h slot = [.ide slot] := by simp [slotDisk, empty]
    rw [single]
    by_cases matched : signature (h.read (.ide slot) s.buffer) = h.osSignature
    · refine ⟨{ s with
        buffer := h.read (.ide slot) s.buffer
        diskIndex := index
        ideDisk := some (.ide slot) }, ?_, ?_⟩
      · simp [probeIde, KernelMain.readInto, pointer, Pointer.access, empty, matched]
      · exact after.matched missed rfl rfl rfl rfl matched (Nat.ne_of_gt lower)
          fun _ => bootDisk_ide upper
    · refine ⟨{ s with
        buffer := h.read (.ide slot) s.buffer
        ideDisk := some (.ide slot) }, ?_, ?_⟩
      · simp [probeIde, KernelMain.readInto, pointer, Pointer.access, empty, matched]
      · exact after.unmatched missed rfl rfl rfl rfl matched rfl

theorem ideDisks_eq (present : h.IdePresent) :
    ideDisks h = slotDisk h .primaryMaster ++ slotDisk h .primarySlave ++
      slotDisk h .secondaryMaster ++ slotDisk h .secondarySlave := by
  rw [ideDisks, if_pos present]
  simp only [slotDisk, List.filter_cons, List.filter_nil]
  cases h.isEmpty .primaryMaster <;> cases h.isEmpty .primarySlave <;>
    cases h.isEmpty .secondaryMaster <;> cases h.isEmpty .secondarySlave <;> rfl

theorem searchIde_after (after : After h [] s) :
    ∃ s', searchIde h s = some s' ∧ After h (ideDisks h) s' := by
  by_cases present : h.IdePresent
  · have pointer : s.ideDriver ≠ .null := by
      rw [after.ideDriver, Pointer.of_present present]
      decide
    obtain ⟨s1, ran1, after1⟩ := probeIde_after after present
      (after.notFound rfl) .primaryMaster 1 (by decide) (by decide)
    obtain ⟨s2, ran2, after2⟩ := unlessFound_after after1 fun missed =>
      probeIde_after after1 present missed .primarySlave 2 (by decide)
        (by decide)
    obtain ⟨s3, ran3, after3⟩ := unlessFound_after after2 fun missed =>
      probeIde_after after2 present missed .secondaryMaster 3 (by decide)
        (by decide)
    obtain ⟨s4, ran4, after4⟩ := unlessFound_after after3 fun missed =>
      probeIde_after after3 present missed .secondarySlave 4 (by decide)
        (by decide)
    refine ⟨s4, ?_, ?_⟩
    · simp only [searchIde, if_pos pointer, ran1, ran2, ran3, ran4,
        Option.bind_eq_bind, Option.bind_some]
    · rw [ideDisks_eq present]
      exact after4
  · have pointer : s.ideDriver = .null := by
      rw [after.ideDriver, Pointer.of_absent present]
    refine ⟨s, by simp [searchIde, pointer], ?_⟩
    rw [ideDisks, if_neg present]
    exact after

/-- The SATA disks are tried one after the other until one is found. -/
theorem sataLoop_after (present : h.AhciPresent) (left : Nat) :
    ∀ j disks s, j + left ≤ h.numDisks → After h disks s → s.diskIndex = 0 →
      ∃ s', sataLoop h left j s = some s' ∧
        After h (disks ++ (List.range' j left).map .sata) s' := by
  induction left with
  | zero =>
      intro j disks s _ after _
      refine ⟨s, rfl, ?_⟩
      simpa using after
  | succ left inductionHypothesis =>
      intro j disks s within after missed
      have pointer : s.ahciDriver = .object := by
        rw [after.ahciDriver, Pointer.of_present present]
      have split : disks ++ (List.range' j (left + 1)).map Disk.sata =
          (disks ++ [.sata j]) ++ (List.range' (j + 1) left).map .sata := by
        simp [List.range'_succ]
      rw [split]
      by_cases matched : signature (h.read (.sata j) s.buffer) = h.osSignature
      · have index : 5 + j ≠ 0 := by omega
        have tried : After h (disks ++ [.sata j])
            { s with
              ahciDisk := some (.sata j)
              buffer := h.read (.sata j) s.buffer
              diskIndex := 5 + j } :=
          after.matched missed rfl rfl rfl rfl matched index fun few =>
            bootDisk_sata rfl (by omega)
        refine ⟨_, ?_, tried.skipped index _⟩
        simp [sataLoop, KernelMain.readInto, pointer, Pointer.access, matched]
      · have tried : After h (disks ++ [.sata j])
            { s with
              ahciDisk := some (.sata j)
              buffer := h.read (.sata j) s.buffer } :=
          after.unmatched missed rfl rfl rfl rfl matched rfl
        obtain ⟨s', ran, after'⟩ :=
          inductionHypothesis (j + 1) _ _ (by omega) tried missed
        refine ⟨s', ?_, after'⟩
        simpa [sataLoop, KernelMain.readInto, pointer, Pointer.access, matched]
          using ran

theorem searchSata_after (after : After h disks s) :
    ∃ s', searchSata h s = some s' ∧ After h (disks ++ sataDisks h) s' := by
  by_cases present : h.AhciPresent
  · have pointer : s.ahciDriver = .object := by
      rw [after.ahciDriver, Pointer.of_present present]
    rw [searchSata, if_pos (by rw [pointer]; decide), sataDisks, if_pos present]
    apply unlessFound_after after
    intro missed
    obtain ⟨s', ran, after'⟩ :=
      sataLoop_after present h.numDisks 0 disks s (by omega) after missed
    refine ⟨s', ?_, after'⟩
    rw [pointer]
    exact ran
  · have pointer : s.ahciDriver = .null := by
      rw [after.ahciDriver, Pointer.of_absent present]
    refine ⟨s, by simp [searchSata, pointer], ?_⟩
    rw [sataDisks, if_neg present, List.append_nil]
    exact after

theorem usbLoop_after (left : Nat) :
    ∀ i disks s, After h disks s → s.diskIndex = 0 →
      After h (disks ++ ((List.range' i left).filter h.massStorageDevices).map .usb)
        (usbLoop h left i s) := by
  induction left with
  | zero =>
      intro i disks s after _
      simpa [usbLoop] using after
  | succ left inductionHypothesis =>
      intro i disks s after missed
      by_cases set : h.massStorageDevices i = true
      · have split : disks ++ ((List.range' i (left + 1)).filter
              h.massStorageDevices).map Disk.usb =
            (disks ++ [.usb i]) ++ ((List.range' (i + 1) left).filter
              h.massStorageDevices).map .usb := by
          simp [List.range'_succ, set]
        rw [split]
        by_cases matched : signature (h.read (.usb i) s.buffer) = h.osSignature
        · have result : usbLoop h (left + 1) i s =
              { s with
                buffer := h.read (.usb i) s.buffer
                diskIndex := 0x81 + i } := by
            simp [usbLoop, KernelMain.readInto, set, matched]
          have index : 0x81 + i ≠ 0 := by omega
          have tried : After h (disks ++ [.usb i])
              { s with
                buffer := h.read (.usb i) s.buffer
                diskIndex := 0x81 + i } :=
            after.matched missed rfl rfl rfl rfl matched index fun _ => bootDisk_usb rfl
          rw [result]
          exact tried.skipped index _
        · have result : usbLoop h (left + 1) i s =
              usbLoop h left (i + 1)
                { s with buffer := h.read (.usb i) s.buffer } := by
            simp [usbLoop, KernelMain.readInto, set, matched]
          rw [result]
          exact inductionHypothesis (i + 1) _ _
            (after.unmatched missed rfl rfl rfl rfl matched rfl) missed
      · have split : disks ++ ((List.range' i (left + 1)).filter
              h.massStorageDevices).map Disk.usb =
            disks ++ ((List.range' (i + 1) left).filter
              h.massStorageDevices).map .usb := by
          simp [List.range'_succ, set]
        have result : usbLoop h (left + 1) i s = usbLoop h left (i + 1) s := by
          simp [usbLoop, set]
        rw [split, result]
        exact inductionHypothesis (i + 1) disks s after missed

theorem searchUsb_after (after : After h disks s) :
    ∃ s', searchUsb h s = some s' ∧ After h (disks ++ usbDisks h) s' := by
  apply unlessFound_after after
  intro missed
  by_cases present : h.EhciPresent
  · have pointer : s.ehciDriver = .object := by
      rw [after.ehciDriver, Pointer.of_present present]
    have searched := usbLoop_after 127 0 disks s after missed
    have pointer' : (usbLoop h 127 0 s).ehciDriver = .object := by
      rw [searched.ehciDriver, Pointer.of_present present]
    refine ⟨usbLoop h 127 0 s, ?_, ?_⟩
    · simp [pointer, pointer', Pointer.access]
    · rw [usbDisks, if_pos present]
      exact searched
  · have pointer : s.ehciDriver = .null := by
      rw [after.ehciDriver, Pointer.of_absent present]
    refine ⟨s, if_neg (by rw [pointer]; decide), ?_⟩
    rw [usbDisks, if_neg present, List.append_nil]
    exact after

/-- `kernel_main` tries the disks in the boot order. -/
theorem kernelMain_after (h : Hardware) :
    ∃ s, After h (bootOrder h) s ∧ kernelMain h = openBootDisk h s := by
  rcases setupDrivers_after h with ⟨s1, ran1, after1⟩
  rcases searchIde_after after1 with ⟨s2, ran2, after2⟩
  rcases searchSata_after after2 with ⟨s3, ran3, after3⟩
  rcases searchUsb_after after3 with ⟨s4, ran4, after4⟩
  refine ⟨s4, after4, ?_⟩
  simp only [kernelMain, ran1, ran2, ran3, ran4, Option.bind_eq_bind,
    Option.bind_some]

end Phases

/-! ## The boot disk -/

theorem openBootDisk_notFound {h : Hardware} {s : KernelMain}
    (missed : s.diskIndex = 0) : openBootDisk h s = some .notFound :=
  if_pos missed

theorem openBootDisk_found {h : Hardware} {s : KernelMain} (found : s.diskIndex ≠ 0)
    (pointer : s.ehciDriver = .object) :
    openBootDisk h s = some
      (if h.fsType s.buffer = 0x07 then .fileSystem s.bootDisk s.buffer
      else .invalidFileSystem) := by
  have access : s.ehciDriver.access = some () := by
    rw [pointer]
    rfl
  rw [openBootDisk, if_neg found]
  simp only [access, Option.bind_eq_bind, Option.bind_some]
  split <;> rfl

/-- The access that is not guarded. -/
theorem openBootDisk_fault {h : Hardware} {s : KernelMain} (found : s.diskIndex ≠ 0)
    (pointer : s.ehciDriver = .null) : openBootDisk h s = none := by
  rw [openBootDisk, if_neg found, pointer]
  rfl

section Results

variable (h : Hardware)

/-- With disks whose reads succeed, the search finds the first disk that
carries the signature. -/
theorem search_of_fills {sector0 : Disk → Sector}
    (fills : ∀ disk buffer, h.read disk buffer = sector0 disk)
    (disks : List Disk) (buffer : Sector) :
    (search h disks buffer).1 =
        disks.find? (fun disk => signature (sector0 disk) = h.osSignature) ∧
      ∀ disk, (search h disks buffer).1 = some disk →
        (search h disks buffer).2 = sector0 disk := by
  induction disks generalizing buffer with
  | nil => exact ⟨rfl, by rintro disk ⟨⟩⟩
  | cons disk disks inductionHypothesis =>
      rw [search, fills]
      by_cases found : signature (sector0 disk) = h.osSignature
      · rw [if_pos found]
        refine ⟨by simp [found], ?_⟩
        rintro _ ⟨⟩
        rfl
      · rw [if_neg found]
        rcases inductionHypothesis (sector0 disk) with ⟨first, whole⟩
        exact ⟨by simp [found, first], whole⟩

/-- With an EHCI controller, at most 32 SATA disks and reads that succeed,
`kernel_main` opens the file system of the first disk in the boot order that
carries the signature, with that disk's own boot sector. -/
theorem kernelMain_boots {sector0 : Disk → Sector}
    (fills : ∀ disk buffer, h.read disk buffer = sector0 disk)
    (few : h.numDisks ≤ 32) (ehci : h.EhciPresent) :
    kernelMain h = some
      (match (bootOrder h).find?
        (fun disk => signature (sector0 disk) = h.osSignature) with
      | some disk =>
          if h.fsType (sector0 disk) = 0x07 then
            .fileSystem (some disk) (sector0 disk)
          else .invalidFileSystem
      | none => .notFound) := by
  rcases kernelMain_after h with ⟨s, after, ran⟩
  rcases search_of_fills h fills (bootOrder h) h.block with ⟨first, whole⟩
  have pointer : s.ehciDriver = .object := by
    rw [after.ehciDriver, Pointer.of_present ehci]
  rw [ran, ← first]
  cases result : (search h (bootOrder h) h.block).1 with
  | none => exact openBootDisk_notFound (after.notFound result)
  | some disk =>
      rcases after.found disk result with ⟨index, booted⟩
      have buffer : s.buffer = sector0 disk := by rw [after.buffer, whole disk result]
      rw [openBootDisk_found index pointer, buffer, booted few]

/-- `kernel_main` uses the EHCI driver that it has discarded exactly on machines
without an EHCI controller that find the signature on an IDE or SATA disk. -/
theorem kernelMain_runs_iff :
    (∃ result, kernelMain h = some result) ↔
      h.EhciPresent ∨ (search h (ideDisks h ++ sataDisks h) h.block).1 = none := by
  rcases kernelMain_after h with ⟨s, after, ran⟩
  rw [ran]
  by_cases ehci : h.EhciPresent
  · have pointer : s.ehciDriver = .object := by
      rw [after.ehciDriver, Pointer.of_present ehci]
    simp only [ehci, true_or, iff_true]
    by_cases missed : s.diskIndex = 0
    · exact ⟨_, openBootDisk_notFound missed⟩
    · exact ⟨_, openBootDisk_found missed pointer⟩
  · have pointer : s.ehciDriver = .null := by
      rw [after.ehciDriver, Pointer.of_absent ehci]
    have order : bootOrder h = ideDisks h ++ sataDisks h := by
      rw [bootOrder, usbDisks, if_neg ehci, List.append_nil]
    rw [order] at after
    rw [← after.diskIndex_iff]
    simp only [ehci, false_or]
    by_cases missed : s.diskIndex = 0
    · simp [missed, openBootDisk_notFound missed]
    · simp [missed, openBootDisk_fault missed pointer]

end Results

/-! ## Two machines -/

def blankSector : Sector := Vector.replicate 512 0#8

/-- A machine with an IDE controller, whose primary master carries the signature
0, and perhaps an EHCI controller. -/
def ideMachine (ehci : PCIDeviceDescriptor) : Hardware where
  ideDescriptor := ⟨0x01, 0x01, 0⟩
  ahciDescriptor := ⟨0, 0, 0⟩
  ehciDescriptor := ehci
  isEmpty slot := slot != .primaryMaster
  numDisks := 0
  massStorageDevices _ := false
  read _ _ := blankSector
  osSignature := 0
  block := blankSector
  fsType _ := 0x07

/-- The machine with an EHCI controller. -/
def usbMachine : Hardware := ideMachine ⟨0x0C, 0x03, 0x20⟩

theorem kernelMain_boots_usbMachine :
    kernelMain usbMachine = some
      (match (bootOrder usbMachine).find?
        (fun _ => signature blankSector = usbMachine.osSignature) with
      | some disk =>
          if usbMachine.fsType blankSector = 0x07 then
            .fileSystem (some disk) blankSector
          else .invalidFileSystem
      | none => .notFound) :=
  @kernelMain_boots usbMachine (fun _ => blankSector) (fun _ _ => rfl) (by decide)
    (by decide)

/-- Without the EHCI controller the boot ends at a null pointer. -/
theorem ideMachine_uses_discarded_driver :
    ¬ ∃ result, kernelMain (ideMachine ⟨0, 0, 0⟩) = some result := by
  rintro ⟨result, ran⟩
  rcases kernelMain_after (ideMachine ⟨0, 0, 0⟩) with ⟨s, after, reached⟩
  have found : (search (ideMachine ⟨0, 0, 0⟩) (bootOrder (ideMachine ⟨0, 0, 0⟩))
      (ideMachine ⟨0, 0, 0⟩).block).1 = some (.ide .primaryMaster) := by
    decide +kernel
  rw [reached, openBootDisk_fault (after.found _ found).1 after.ehciDriver] at ran
  cases ran

end Os88.Boot
