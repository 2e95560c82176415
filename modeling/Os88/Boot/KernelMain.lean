/-
Module: Os88.Boot.KernelMain
Purpose: `kernel_main` from the setup of the disk drivers to the file system of
  the boot disk.
Trusted boundary: the PCI bus, the drivers, the drives and `OSBootSector` lie
  outside the repository.  What they answer is a `Hardware`; every allocation
  succeeds.  What follows the file system does not mention the three drivers.
Main exports: Hardware, Disk, KernelMain, setupDrivers, searchIde, searchSata,
  searchUsb, openBootDisk, kernelMain
-/
import Mathlib.Data.List.Basic

namespace Os88.Boot

/-- What fits into `buffer`. -/
abbrev Sector := Vector (BitVec 8) 512

/-- `*(uint32_t*)(buffer + 442)` -/
def signature (buffer : Sector) : BitVec 32 :=
  buffer[445] ++ buffer[444] ++ buffer[443] ++ buffer[442]

/-- The four drives of the two IDE channels. -/
inductive IdeSlot where
  | primaryMaster
  | primarySlave
  | secondaryMaster
  | secondarySlave
deriving DecidableEq, Repr

/-- A disk that can be read from. -/
inductive Disk where
  | ide (slot : IdeSlot)
  | sata (j : Nat)
  | usb (i : Nat)
deriving DecidableEq, Repr

/-- The fields of a `PCIDeviceDescriptor` that are compared. -/
structure PCIDeviceDescriptor where
  classId : BitVec 8
  subclassId : BitVec 8
  interfaceId : BitVec 8
deriving DecidableEq, Repr

/-- What the machine answers: the descriptors that `GetDescriptor` fills in,
which IDE drives are empty, `ahci_driver->numDisks`, which of the 127 pointers
`MassStorageDevices` are set once the ports are checked, the buffer after
`Read(0, 1, buffer)` of a disk, the signature behind the boot code, the block
from `malloc(512)` and `partition2.FSType` of a boot sector. -/
structure Hardware where
  ideDescriptor : PCIDeviceDescriptor
  ahciDescriptor : PCIDeviceDescriptor
  ehciDescriptor : PCIDeviceDescriptor
  isEmpty : IdeSlot → Bool
  numDisks : Nat
  massStorageDevices : Nat → Bool
  read : Disk → Sector → Sector
  osSignature : BitVec 32
  block : Sector
  fsType : Sector → BitVec 8

/-- A pointer to a driver: its object, or 0 once the object was freed. -/
inductive Pointer where
  | object
  | null
deriving DecidableEq, Repr

/-- Access to a member; through a null pointer it is a fault. -/
def Pointer.access : Pointer → Option Unit
  | .object => some ()
  | .null => none

/-- The variables of `kernel_main`, and the flag `portCanChange` of the EHCI
driver. -/
structure KernelMain where
  ideDriver : Pointer
  ahciDriver : Pointer
  ehciDriver : Pointer
  portCanChange : Bool
  ideDisk : Option Disk
  ahciDisk : Option Disk
  diskIndex : Nat
  buffer : Sector

/-- How the search ends: without a boot disk, with a boot sector of another
file system, or with the disk and the boot sector given to `FileSystem`. -/
inductive BootResult where
  | notFound
  | invalidFileSystem
  | fileSystem (disk : Option Disk) (bootSector : Sector)
deriving DecidableEq

section Phases

variable (h : Hardware)

/-! ## Driver setup -/

def Hardware.IdePresent : Prop :=
  h.ideDescriptor.classId = 0x01 ∧ h.ideDescriptor.subclassId = 0x01

def Hardware.AhciPresent : Prop :=
  h.ahciDescriptor.classId = 0x01 ∧ h.ahciDescriptor.subclassId = 0x06

def Hardware.EhciPresent : Prop :=
  h.ehciDescriptor.classId = 0x0C ∧ h.ehciDescriptor.subclassId = 0x03 ∧
    h.ehciDescriptor.interfaceId = 0x20

instance : Decidable h.IdePresent := inferInstanceAs (Decidable (_ ∧ _))

instance : Decidable h.AhciPresent := inferInstanceAs (Decidable (_ ∧ _))

instance : Decidable h.EhciPresent := inferInstanceAs (Decidable (_ ∧ _ ∧ _))

/-- Behind the allocations. -/
def KernelMain.allocated : KernelMain where
  ideDriver := .object
  ahciDriver := .object
  ehciDriver := .object
  portCanChange := false
  ideDisk := none
  ahciDisk := none
  diskIndex := 0
  buffer := h.block

def setupIde (s : KernelMain) : Option KernelMain :=
  if h.IdePresent then do
    s.ideDriver.access   -- Initialize()
    return s
  else some { s with ideDriver := .null }

def setupAhci (s : KernelMain) : Option KernelMain :=
  if h.AhciPresent then do
    s.ahciDriver.access   -- Initialize()
    return s
  else some { s with ahciDriver := .null }

def setupEhci (s : KernelMain) : Option KernelMain :=
  if h.EhciPresent then do
    s.ehciDriver.access
    return { s with portCanChange := false }
  else some { s with ehciDriver := .null }

def setupDrivers (s : KernelMain) : Option KernelMain := do
  let s ← setupIde h s
  let s ← setupAhci h s
  setupEhci h s

/-! ## The search for the boot disk -/

/-- `Read(0, 1, buffer)` -/
def KernelMain.readInto (disk : Disk) (s : KernelMain) : KernelMain :=
  { s with buffer := h.read disk s.buffer }

/-- The branch for one IDE drive, which sets `diskIndex` to `index`.
`ide_disk` is set whether or not the signature is there. -/
def probeIde (slot : IdeSlot) (index : Nat) (s : KernelMain) :
    Option KernelMain := do
  s.ideDriver.access
  if h.isEmpty slot then return s
  else
    let s := s.readInto h (.ide slot)
    let s := if signature s.buffer = h.osSignature then
        { s with diskIndex := index } else s
    s.ideDriver.access
    return { s with ideDisk := some (.ide slot) }

/-- `if (diskIndex == 0)` -/
def unlessFound (search : KernelMain → Option KernelMain) (s : KernelMain) :
    Option KernelMain :=
  if s.diskIndex = 0 then search s else some s

def searchIde (s : KernelMain) : Option KernelMain :=
  if s.ideDriver ≠ .null then do
    let s ← probeIde h .primaryMaster 1 s
    let s ← unlessFound (probeIde h .primarySlave 2) s
    let s ← unlessFound (probeIde h .secondaryMaster 3) s
    unlessFound (probeIde h .secondarySlave 4) s
  else some s

/-- The loop over the SATA disks from `j` on, with `left` disks to go. -/
def sataLoop : Nat → Nat → KernelMain → Option KernelMain
  | 0, _, s => some s
  | left + 1, j, s => do
      s.ahciDriver.access
      let s := { s with ahciDisk := some (.sata j) }.readInto h (.sata j)
      if signature s.buffer = h.osSignature then
        return { s with diskIndex := 5 + j }
      else sataLoop left (j + 1) s

def searchSata (s : KernelMain) : Option KernelMain :=
  if s.ahciDriver ≠ .null then
    unlessFound (fun s => do
      s.ahciDriver.access   -- numDisks
      sataLoop h h.numDisks 0 s) s
  else some s

/-- The loop over the USB slots from `i` on, with `left` slots to go. -/
def usbLoop : Nat → Nat → KernelMain → KernelMain
  | 0, _, s => s
  | left + 1, i, s =>
      if h.massStorageDevices i then
        let s := s.readInto h (.usb i)
        if signature s.buffer = h.osSignature then
          { s with diskIndex := 0x81 + i }
        else usbLoop left (i + 1) s
      else usbLoop left (i + 1) s

def searchUsb (s : KernelMain) : Option KernelMain :=
  unlessFound (fun s =>
    if s.ehciDriver ≠ .null then do
      s.ehciDriver.access   -- the ports, EnableAsyncSchedule()
      let s := usbLoop h 127 0 s
      s.ehciDriver.access   -- DisableAsyncSchedule()
      return s
    else some s) s

/-! ## The file system -/

/-- The disk that the three encodings of `diskIndex` lead to. -/
def KernelMain.bootDisk (s : KernelMain) : Option Disk :=
  if s.diskIndex > 0x80 then some (.usb (s.diskIndex - 0x81))
  else if s.diskIndex > 4 then s.ahciDisk
  else s.ideDisk

def openBootDisk (s : KernelMain) : Option BootResult :=
  if s.diskIndex = 0 then some .notFound
  else do
    s.ehciDriver.access
    let s := { s with portCanChange := true }
    if h.fsType s.buffer = 0x07 then return .fileSystem s.bootDisk s.buffer
    else return .invalidFileSystem

/-- `kernel_main` behind the allocations; without a result it has accessed a
member of a driver it discarded. -/
def kernelMain : Option BootResult := do
  let s ← setupDrivers h (KernelMain.allocated h)
  let s ← searchIde h s
  let s ← searchSata h s
  let s ← searchUsb h s
  openBootDisk h s

end Phases

end Os88.Boot
