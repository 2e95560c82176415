/-
Module: Os88.Loader.KernelHandover
Purpose: The second stage as a whole, from `start` to the kernel: the kernel that runs is
  the one on the disk, and what else the loader hands over.
Trusted boundary: as in the modules of the stages.  A disk read of the BIOS goes on over
  the ends of tracks.
Main exports: secondStage, Stores, step_stores, run_image, ReadsDisk, loadKernel_image,
  HandedOver, kernel_handed_over, Supports, secondStage_reaches_kernel
-/
import Os88.Loader.BootBlock
import Os88.Loader.SectorAddress

namespace Os88.Loader

open Boot
open ByteMemory
open Execution
open PageWalk

/-- The second stage: at most `capture` modes are saved and `search` are looked at, and there
are `n` steps in protected mode. -/
def secondStage (bios : Bios) (returnAddress eax : BitVec 32) (capture search n : Nat)
    (ram : Memory) : Option Cpu := do
  let memory ← saveAvailableVideoModes capture (GetVesaControllerInfo bios ram)
  let memory ← doE820 bios.replies memory
  let memory ← loadKernel bios memory
  let memory ← switchVideoMode bios.modeInfo search memory
  run returnAddress n (beginPm eax memory)

/-! ## What a step in protected mode stores -/

/-- A step with `left` steps to go: what it stores, and when it is the call. -/
inductive Stores (returnAddress : BitVec 32) : Nat → Cpu → Cpu → Prop where
  | kernelByte {s s' : Cpu} (done rest : Nat) (count : done + (rest + 1) = 512 * 240)
      (memory : s'.memory = store8 s.memory (0x100000 + done) (s.memory (0x9000 + done)))
      (label : s'.label ≠ .kernel) :
      Stores returnAddress (rest + 1 + 1 + (1 + afterCopy)) s s'
  | nothing {s s' : Cpu} {left : Nat} (late : left ≤ 1 + (1 + afterCopy))
      (memory : s'.memory = s.memory) (label : s'.label ≠ .kernel) :
      Stores returnAddress left s s'
  | entry {s s' : Cpu} {left : Nat} (a : Nat) (late : left ≤ afterCopy)
      (place : (0x29000 ≤ a ∧ a + 4 ≤ 0x2A000) ∨ (0x200000 ≤ a ∧ a + 4 ≤ 0x600000))
      (memory : s'.memory = store32 s.memory a s.eax) (label : s'.label ≠ .kernel) :
      Stores returnAddress left s s'
  | call {s s' : Cpu} (memory : s'.memory = store32 s.memory 0x1EFFFC returnAddress)
      (eax : s'.eax = 0x8200) (esp : s'.esp = 0x1EFFFC) : Stores returnAddress 1 s s'
  | inKernel {s : Cpu} : Stores returnAddress 0 s s

section Steps

variable {returnAddress : BitVec 32} {left : Nat} {s s' : Cpu}

/-- A stored entry, whichever loop it is in. -/
theorem stores_entry {filled replaced a rest : Nat} {next : Label}
    (tables : Tables filled replaced s.memory) (few : replaced ≤ 1024)
    (esi : s.esi = BitVec.ofNat 32 a)
    (place : (0x29000 ≤ a ∧ a + 4 ≤ 0x2A000) ∨ (0x200000 ≤ a ∧ a + 4 ≤ 0x600000))
    (ecx : s.ecx = BitVec.ofNat 32 (rest + 1)) (small : rest < 2 ^ 32)
    (label : s.label ≠ .kernel) (other : next ≠ .kernel) (late : left ≤ afterCopy)
    (stepped : s.storeEntry next = some s') : Stores returnAddress left s s' := by
  obtain ⟨_, stored, label', memory', -⟩ :=
    storeEntry_spec tables few esi (by omega) ecx small next
  obtain rfl := Option.some.inj (stored.symm.trans stepped)
  refine .entry a late place memory' ?_
  rw [label']
  split
  · exact other
  · exact label

theorem stores_copying {done rest : Nat} (label : s.label = .repMovsb)
    (count : done + rest = 512 * 240) (ecx : s.ecx = BitVec.ofNat 32 rest)
    (esi : s.esi = BitVec.ofNat 32 (0x9000 + done))
    (edi : s.edi = BitVec.ofNat 32 (0x100000 + done)) (tables : Tables 0 0 s.memory)
    (stepped : s.movsb = some s') :
    Stores returnAddress (rest + 1 + (1 + afterCopy)) s s' := by
  cases rest with
  | zero =>
      have ended : s.ecx = 0 := ecx
      obtain rfl := Option.some.inj ((if_pos ended).symm.trans stepped)
      exact .nothing (by omega) rfl Label.noConfusion
  | succ rest =>
      obtain ⟨_, moved, label', memory', -⟩ := movsb_spec tables count ecx esi edi
      obtain rfl := Option.some.inj (moved.symm.trans stepped)
      refine .kernelByte done rest count memory' ?_
      rw [label', label]
      exact Label.noConfusion

theorem stores_calling (esp : s.esp = 0x1F0000) (tables : Tables 1048576 1024 s.memory)
    (stepped : s.callKernel returnAddress = some s') : Stores returnAddress 1 s s' := by
  obtain ⟨_, called, memory', -⟩ := callKernel_spec returnAddress esp tables
  obtain rfl := Option.some.inj (called.symm.trans stepped)
  rcases Option.bind_eq_some_iff.mp stepped with ⟨_, _, registers⟩
  obtain rfl := Option.some.inj registers
  refine .call memory' rfl ?_
  show s.esp - 4 = _
  rw [esp]
  rfl

theorem step_stores (loading : Loading left s) (stepped : step returnAddress s = some s') :
    Stores returnAddress left s s' := by
  cases loading with
  | copying done rest label count ecx esi edi _ tables =>
      rw [step, label] at stepped
      exact stores_copying label count ecx esi edi tables stepped
  | copied label =>
      rw [step, label] at stepped
      obtain rfl := Option.some.inj stepped
      exact .nothing (by omega) rfl Label.noConfusion
  | filling done rest label count ecx esi _ _ tables =>
      rw [step, label] at stepped
      have late : rest + 1 + (1 + afterTables) ≤ afterCopy := by
        rw [afterCopy]
        omega
      exact stores_entry tables (Nat.zero_le _) esi (by omega) ecx (by omega)
        (by rw [label]; exact Label.noConfusion) Label.noConfusion late stepped
  | filled label =>
      rw [step, label] at stepped
      obtain rfl := Option.some.inj stepped
      have late : 1 + afterTables ≤ 1 + (1 + afterCopy) := by
        rw [afterCopy]
        omega
      exact .nothing late rfl Label.noConfusion
  | replacing done rest label count ecx esi _ _ tables =>
      rw [step, label] at stepped
      have late : rest + 1 + 1 ≤ afterCopy := by
        rw [afterCopy, afterTables]
        omega
      exact stores_entry tables (by omega) esi (by omega) ecx (by omega)
        (by rw [label]; exact Label.noConfusion) Label.noConfusion late stepped
  | replaced label esp tables =>
      rw [step, label] at stepped
      exact stores_calling esp tables stepped
  | called label =>
      rw [step, label] at stepped
      obtain rfl := Option.some.inj stepped
      exact .inKernel

/-! ## Runs -/

/-- The number of bytes that are copied when `left` steps are to go. -/
def copied (left : Nat) : Nat := 512 * 240 - (left - (1 + (1 + afterCopy)))

/-- The bytes copied so far. -/
def Image (image : Nat → BitVec 8) (n : Nat) (m : Memory) : Prop :=
  ∀ i < n, m (0x100000 + i) = image i

/-- What a run has done, with `left` steps to go, from a memory with the image of the
kernel in its lower place. -/
structure Handing (returnAddress : BitVec 32) (image : Nat → BitVec 8) (first : Memory)
    (left : Nat) (s : Cpu) : Prop where
  loading : Loading left s
  source : ∀ i < 512 * 240, s.memory (0x9000 + i) = image i
  image : Image image (copied left) s.memory
  between : ∀ a, 0x2A000 ≤ a → a < 0x100000 → s.memory a = first a
  called : s.label = .kernel →
    s.eax = 0x8200 ∧ s.esp = 0x1EFFFC ∧ load32 s.memory 0x1EFFFC = returnAddress

theorem copied_late (late : left ≤ 1 + (1 + afterCopy)) : copied left = 512 * 240 := by
  rw [copied, Nat.sub_eq_zero_of_le late]

/-- Stores elsewhere keep the copied bytes. -/
theorem Image.kept {image : Nat → BitVec 8} {m m' : Memory} {n n' : Nat}
    (copied : Image image n m) (fewer : n' ≤ n) (same : ∀ i < n, m' (0x100000 + i) =
      m (0x100000 + i)) : Image image n' m' :=
  fun i inside =>
    (same i (Nat.lt_of_lt_of_le inside fewer)).trans
      (copied i (Nat.lt_of_lt_of_le inside fewer))

variable {image : Nat → BitVec 8} {first : Memory}

theorem step_image (handing : Handing returnAddress image first left s)
    (stores : Stores returnAddress left s s') :
    Image image (copied (left - 1)) s'.memory := by
  have before := handing.image
  cases stores with
  | kernelByte done rest count memory label =>
      intro i inside
      have bound : i < done + 1 := by
        rw [copied] at inside
        omega
      rw [memory]
      by_cases last : i = done
      · rw [last, store8_self]
        exact handing.source done (by omega)
      · rw [store8_of_ne _ (by omega)]
        refine before i ?_
        rw [copied]
        omega
  | nothing late memory label =>
      rw [copied_late (by omega)]
      rw [copied_late late] at before
      exact before.kept (Nat.le_refl _) fun i _ => by rw [memory]
  | entry a late place memory label =>
      rw [copied_late (by omega)]
      rw [copied_late (by omega)] at before
      refine before.kept (Nat.le_refl _) fun i inside => ?_
      rw [memory]
      exact store32_apart _ _ _ (by omega)
  | call memory eax esp =>
      rw [copied_late (by omega)]
      rw [copied_late (by omega)] at before
      refine before.kept (Nat.le_refl _) fun i inside => ?_
      rw [memory]
      exact store32_apart _ _ _ (by omega)
  | inKernel => exact before

theorem step_handing (handing : Handing returnAddress image first left s) :
    ∃ s', step returnAddress s = some s' ∧
      Handing returnAddress image first (left - 1) s' := by
  rcases step_loading returnAddress handing.loading with ⟨s', stepped, loading⟩
  have stores := step_stores handing.loading stepped
  refine ⟨s', stepped, loading, fun i inside => ?_, step_image handing stores, ?_, ?_⟩
  · rw [step_below handing.loading stepped (by omega)]
    exact handing.source i inside
  · intro a lower upper
    rw [← handing.between a lower upper]
    cases stores with
    | kernelByte done rest count memory label =>
        rw [memory]
        exact store8_of_ne _ (by omega)
    | nothing late memory label => rw [memory]
    | entry b late place memory label =>
        rw [memory]
        exact store32_apart _ _ _ (by omega)
    | call memory eax esp =>
        rw [memory]
        exact store32_apart _ _ _ (by omega)
    | inKernel => rfl
  · intro inKernel
    cases stores with
    | kernelByte _ _ _ _ label => exact absurd inKernel label
    | nothing _ _ label => exact absurd inKernel label
    | entry _ _ _ _ label => exact absurd inKernel label
    | call memory eax esp =>
        rw [memory]
        exact ⟨eax, esp, load32_store32 returnAddress⟩
    | inKernel => exact handing.called inKernel

theorem run_handing (handing : Handing returnAddress image first left s) (n : Nat) :
    ∃ s', run returnAddress n s = some s' ∧
      Handing returnAddress image first (left - n) s' := by
  have ran : ∃ s', countLoop (fun _ => step returnAddress) 0 n s = some s' ∧
      Handing returnAddress image first (left - (0 + n)) s' := by
    have start : Handing returnAddress image first (left - 0) s := handing
    apply countLoop_rule (fun i s => Handing returnAddress image first (left - i) s) start
    intro i s _ _ handing
    rcases step_handing handing with ⟨s', stepped, next⟩
    refine ⟨s', stepped, ?_⟩
    rw [Nat.sub_sub] at next
    exact next
  rwa [Nat.zero_add] at ran

end Steps

/-- Paging is prepared in its tables and in the word that names the directory. -/
theorem EnablePaging_outside (memory : Memory) {a : Nat}
    (outside : (0x860E ≤ a ∧ a < 0x29000) ∨ 0x2C000 ≤ a) : EnablePaging memory a = memory a := by
  have loop0 : pagingLoop0 memory a = memory a :=
    fillTable_changed 0x2900 0 1024 0 _ memory (by decide) a
      (by show a < 0x29000 ∨ 0x2A000 ≤ a; omega)
  have loop1 : pagingLoop1 (pagingLoop0 memory) a = pagingLoop0 memory a :=
    fillTable_changed 0x2A00 0x1000 1024 0 _ _ (by decide) a
      (by show a < 0x2A000 ∨ 0x2B000 ≤ a; omega)
  have loop2 := pagingLoop2_changed (pagingLoop1 (pagingLoop0 memory)) a (by omega)
  rw [EnablePaging, loadPageDirectory, store32_apart _ _ _ (by omega), loadPageTables,
    store32_apart _ _ _ (by omega), store32_apart _ _ _ (by omega), loop2, loop1, loop0]

/-- What the steps in protected mode leave, in the kernel. -/
theorem run_image {returnAddress eax : BitVec 32} {memory : Memory} {n : Nat} {s : Cpu}
    (ran : run returnAddress n (beginPm eax memory) = some s) (inKernel : s.label = .kernel) :
    (∀ i < 512 * 240, s.memory (0x100000 + i) = memory (0x9000 + i)) ∧
      (∀ a, 0x2C000 ≤ a → a < 0x100000 → s.memory a = memory a) ∧
      s.eax = 0x8200 ∧ s.esp = 0x1EFFFC ∧ load32 s.memory 0x1EFFFC = returnAddress := by
  have start : Handing returnAddress (fun i => memory (0x9000 + i)) (EnablePaging memory)
      allSteps (beginPm eax memory) := by
    refine ⟨loading_beginPm eax memory, fun i inside => ?_, ?_, fun _ _ _ => rfl, nofun⟩
    · exact EnablePaging_outside memory (by omega)
    · intro i inside
      rw [copied, allSteps, Nat.add_assoc, Nat.add_sub_cancel, Nat.sub_self] at inside
      exact absurd inside (Nat.not_lt_zero i)
  rcases run_handing start n with ⟨_, again, handing⟩
  obtain rfl := Option.some.inj (again.symm.trans ran)
  have none : copied (allSteps - n) = 512 * 240 := by
    have loading := handing.loading
    generalize allSteps - n = left at loading
    cases loading with
    | called => exact copied_late (Nat.zero_le _)
    | copying _ _ label => rw [label] at inKernel; cases inKernel
    | copied label => rw [label] at inKernel; cases inKernel
    | filling _ _ label => rw [label] at inKernel; cases inKernel
    | filled label => rw [label] at inKernel; cases inKernel
    | replacing _ _ label => rw [label] at inKernel; cases inKernel
    | replaced label => rw [label] at inKernel; cases inKernel
  refine ⟨fun i inside => ?_, fun a lower upper => ?_, handing.called inKernel⟩
  · exact handing.image i (by rw [none]; exact inside)
  · rw [handing.between a (by omega) upper]
    exact EnablePaging_outside memory (Or.inr lower)

/-! ## The kernel on the disk -/

/-- The BIOS reads sectors of a disk, by the geometry that it reports. -/
def ReadsDisk (bios : Bios) (disk : Nat → BitVec 8) : Prop :=
  ∀ cx dh, bios.driveParameters = some (cx, dh) →
    ∀ cyl sect head bytes, bios.readSectors cyl sect head = some bytes →
      ∀ i < 512 * 120, bytes i =
        disk (512 * address (cx &&& 0x3F#16).toNat (dh.toNat + 1) cyl.toNat head.toNat
          (sect.toNat - 1) + i)

section Disk

variable {bios : Bios} {disk : Nat → BitVec 8} {m m' : Memory}

/-- The 240 sectors behind the first three. -/
theorem loadKernel_image (reads : ReadsDisk bios disk) (ran : loadKernel bios m = some m') :
    ∀ i < 512 * 240, m' (0x9000 + i) = disk (512 * 3 + i) := by
  rw [loadKernel] at ran
  rcases Option.bind_eq_some_iff.mp ran with ⟨⟨cx, dh⟩, geometry, ran⟩
  rcases Option.bind_eq_some_iff.mp ran with ⟨first, lower, ran⟩
  rcases Option.bind_eq_some_iff.mp ran with ⟨chs, divided, ran⟩
  rcases Option.bind_eq_some_iff.mp ran with ⟨second, upper, ran⟩
  obtain rfl := Option.some.inj ran
  have masked : (cx &&& 0x3F#16).toNat ≤ 63 := by
    rw [BitVec.toNat_and]
    exact Nat.and_le_right
  have counted : (dh.setWidth 16 + 1).toNat = dh.toNat + 1 := by
    have bound := dh.isLt
    have one : (1 : BitVec 16).toNat = 1 := rfl
    rw [BitVec.toNat_add, BitVec.toNat_setWidth, one]
    omega
  have some : 1 ≤ (cx &&& 0x3F#16).toNat := by
    have noZero : ¬ (cx &&& 0x3F#16 = 0 ∨ dh.setWidth 16 + 1 = 0) := by
      intro zero
      rw [getchs, if_pos zero] at divided
      cases divided
    rw [not_or, ← BitVec.toNat_inj] at noZero
    exact Nat.pos_of_ne_zero noZero.1
  have bound := dh.isLt
  rcases getchs_fields some masked (by omega : 1 ≤ (dh.setWidth 16 + 1).toNat) (by omega) 123 with
    ⟨_, again, cyl, head, sect⟩
  rw [getchsDivisions_eq] at again
  obtain rfl := Option.some.inj (divided.symm.trans again)
  have small : (123 : BitVec 16).toNat / (cx &&& 0x3F#16).toNat / (dh.toNat + 1) < 2 ^ 8 :=
    Nat.lt_of_le_of_lt (Nat.div_le_self _ _) (Nat.lt_of_le_of_lt (Nat.div_le_self _ _) (by decide))
  have place : address (cx &&& 0x3F#16).toNat (dh.toNat + 1) chs.cyl.toNat chs.head.toNat
      (chs.sect.toNat - 1) = 123 := by
    rw [counted] at cyl head
    rw [Nat.mod_eq_of_lt small] at cyl
    rw [cyl, head, sect, Nat.add_sub_cancel]
    exact address_divisions _ _ 123
  have start : address (cx &&& 0x3F#16).toNat (dh.toNat + 1) (0 : BitVec 8).toNat
      (0 : BitVec 8).toNat ((4 : BitVec 8).toNat - 1) = 3 := by
    rw [address]
    simp
  intro i inside
  rcases Nat.lt_or_ge i (512 * 120) with low | high
  · have byte := reads cx dh geometry 0 4 0 first lower i low
    rw [start] at byte
    rw [storeBytes, if_neg (by omega), storeBytes_inside _ low, byte]
  · have byte := reads cx dh geometry _ _ _ second upper (i - 512 * 120) (by omega)
    rw [place] at byte
    have position : 0x9000 + i = 0x18000 + (i - 512 * 120) := by omega
    have same : 512 * 123 + (i - 512 * 120) = 512 * 3 + i := by omega
    rw [position, storeBytes_inside _ (by omega), byte, same]

/-- What the kernel finds when it is called. -/
structure HandedOver (disk : Nat → BitVec 8) (returnAddress : BitVec 32) (s : Cpu) : Prop where
  image : ∀ i < 512 * 240, s.memory (0x100000 + i) = disk (512 * 3 + i)
  identity : ∀ linear write, translate write s.memory cr3 linear = some linear
  block : s.eax = 0x8200
  stack : s.esp = 0x1EFFFC ∧ load32 s.memory 0x1EFFFC = returnAddress
  directory : load32 s.memory 0x860A = 0x29000

theorem beginPm_directory {returnAddress eax : BitVec 32} {n : Nat} {s : Cpu}
    (ran : run returnAddress n (beginPm eax m) = some s) :
    load32 s.memory 0x860A = 0x29000 := by
  have stored : load32 (EnablePaging m) 0x860A = 0x29000 := load32_store32 0x29000
  rw [← stored]
  exact load32_congr fun i inside =>
    run_below (loading_beginPm eax m) n ran (by omega)

theorem beginPm_handsOver {returnAddress eax : BitVec 32} {n : Nat} {s : Cpu}
    (image : ∀ i < 512 * 240, m (0x9000 + i) = disk (512 * 3 + i))
    (ran : run returnAddress n (beginPm eax m) = some s) (inKernel : s.label = .kernel) :
    HandedOver disk returnAddress s := by
  rcases run_image ran inKernel with ⟨copied, -, eax, esp, returns⟩
  rcases run_loading returnAddress (loading_beginPm _ m) n with ⟨_, again, loading⟩
  obtain rfl := Option.some.inj (again.symm.trans ran)
  exact ⟨fun i inside => (copied i inside).trans (image i inside),
    loading.identity_all (Or.inr inKernel), eax, ⟨esp, returns⟩, beginPm_directory ran⟩

/-- Whatever is in RAM, and whatever the BIOS says about memory and video modes: when the
loader calls the kernel, the 240 sectors behind the first three of the boot disk lie at
1 MB, whatever the geometry of the disk is, all addresses are mapped to themselves, and
`eax`, the stack and the page directory's word are as the kernel expects them. -/
theorem kernel_handed_over (reads : ReadsDisk bios disk) {returnAddress eax : BitVec 32}
    {capture search n : Nat} {ram : Memory} {s : Cpu}
    (ran : secondStage bios returnAddress eax capture search n ram = some s)
    (inKernel : s.label = .kernel) : HandedOver disk returnAddress s := by
  rcases Option.bind_eq_some_iff.mp ran with ⟨atE820, captured, ran⟩
  rcases Option.bind_eq_some_iff.mp ran with ⟨collected, mapped, ran⟩
  rcases Option.bind_eq_some_iff.mp ran with ⟨atSearch, loaded, ran⟩
  rcases Option.bind_eq_some_iff.mp ran with ⟨atPaging, switched, ran⟩
  refine beginPm_handsOver (fun i inside => ?_) ran inKernel
  rw [switchVideoMode_changed switched _ (by omega)]
  exact loadKernel_image reads loaded i inside

/-- A BIOS that the loader gets through with: it reads the disk, its list of modes is
captured and has a mode that fits, and it has a memory map. -/
structure Supports (bios : Bios) (disk : Nat → BitVec 8) (ram : Memory) (script : Script)
    (modes : List (BitVec 16)) (info : Nat → BitVec 8) : Prop where
  reads : ReadsDisk bios disk
  geometry : ∃ cx dh, bios.driveParameters = some (cx, dh) ∧ cx &&& 0x3F#16 ≠ 0 ∧
    dh.setWidth 16 + 1 ≠ (0 : BitVec 16)
  delivers : ∀ cyl sect head, ∃ bytes, bios.readSectors cyl sect head = some bytes
  replies : bios.replies = script.replies
  captured : CapturesModes (GetVesaControllerInfo bios ram) modes
  leads : LeadsTo bios.modeInfo modes info
  -- the count of the memory map is stored in 16 bits and read in 32
  clear : load16 ram 0x8604 = 0#16

theorem loadKernel_total {bios : Bios} (geometry : ∃ cx dh, bios.driveParameters = some (cx, dh) ∧
      cx &&& 0x3F#16 ≠ 0 ∧ dh.setWidth 16 + 1 ≠ (0 : BitVec 16))
    (delivers : ∀ cyl sect head, ∃ bytes, bios.readSectors cyl sect head = some bytes)
    (m : Memory) : ∃ m', loadKernel bios m = some m' := by
  rcases geometry with ⟨cx, dh, answered, sectors, heads⟩
  rcases delivers 0 4 0 with ⟨first, lower⟩
  have divided : ∃ chs, getchs (cx &&& 0x3F#16) (dh.setWidth 16 + 1) 123 = some chs := by
    rw [getchs, if_neg (not_or.mpr ⟨sectors, heads⟩)]
    exact ⟨_, rfl⟩
  rcases divided with ⟨chs, divided⟩
  rcases delivers chs.cyl chs.sect chs.head with ⟨second, upper⟩
  simp only [loadKernel, answered, lower, divided, upper, Option.bind_eq_bind, Option.bind_some]
  exact ⟨_, rfl⟩

/-- Records depend on their own bytes only. -/
theorem records_congr {m m' : Memory} {a count : Nat}
    (same : ∀ b, a ≤ b → b < a + 24 * count → m' b = m b) :
    records m' a count = records m a count := by
  apply List.map_congr_left
  intro i member
  have inside : i < count := List.mem_range.mp member
  have word : ∀ k, k + 4 ≤ 24 → load32 m' (a + 24 * i + k) = load32 m (a + 24 * i + k) :=
    fun k small => load32_congr fun j part => same _ (by omega) (by omega)
  simp only [recordAt, load64, MemoryMapEntry.mk.injEq, Nat.add_assoc (a + 24 * i)]
  exact ⟨congrArg₂ _ (word 4 (by decide)) (word 0 (by decide)),
    congrArg₂ _ (word (8 + 4) (by decide)) (word 8 (by decide)),
    word 16 (by decide), word 20 (by decide)⟩

/-- The memory map behind all stages is the one that `do_e820` has stored. -/
theorem handed_map {bios : Bios} {stored atSearch atPaging : Memory}
    {returnAddress eax : BitVec 32} {search n : Nat} {s : Cpu} {count : Nat}
    (loaded : loadKernel bios stored = some atSearch)
    (switched : switchVideoMode bios.modeInfo search atSearch = some atPaging)
    (ran : run returnAddress n (beginPm eax atPaging) = some s) (inKernel : s.label = .kernel)
    (address : memoryEntries stored 0x8200 = 0x30000#32)
    (counted : (noOfMemoryEntries stored 0x8200).toNat = count) (few : count ≤ 2730) :
    (readMemoryMap s.memory 0x8200).memMapEntries = records stored 0x30000 count := by
  have field : ∀ a, 0x8602 ≤ a → a < 0x860A → s.memory a = stored a := by
    intro a lower upper
    rw [beginPm_below ran upper, switchVideoMode_changed switched a (Or.inr lower),
      loadKernel_changed loaded a (Or.inl (by omega))]
  have map : ∀ a, 0x30000 ≤ a → a < 0x100000 → s.memory a = stored a := by
    intro a lower upper
    rw [(run_image ran inKernel).2.1 a (by omega) upper,
      switchVideoMode_changed switched a (Or.inr (by omega)),
      loadKernel_changed loaded a (Or.inr (by omega))]
  have kept : memoryEntries s.memory 0x8200 = 0x30000#32 := by
    rw [← address]
    exact load32_congr fun i inside => field _ (by omega) (by omega)
  have recounted : (noOfMemoryEntries s.memory 0x8200).toNat = count := by
    rw [← counted]
    exact congrArg BitVec.toNat
      (load32_congr fun i inside => field _ (by omega) (by omega))
  rw [(readMemoryMap_eq _ _).1, kept, recounted]
  refine records_congr fun b lower upper => map b lower ?_
  have top : (0x30000#32).toNat = 0x30000 := rfl
  omega

end Disk

/-! ## A disk that counts -/

/-- The run behind a boot. -/
theorem Boots.runs {bios : Bios} {ram atE820 atSearch atKernel : Memory}
    (boots : Boots bios ram atE820 atSearch atKernel) :
    ∃ returnAddress eax capture search n s,
      secondStage bios returnAddress eax capture search n ram = some s ∧ s.label = .kernel ∧
      s.memory = atKernel := by
  rcases boots.captured with ⟨capture, captured⟩
  rcases Option.bind_eq_some_iff.mp boots.loaded with ⟨middle, mapped, loaded⟩
  rcases boots.entered with ⟨search, memory, returnAddress, eax, n, s, switched, ran, label, same⟩
  refine ⟨returnAddress, eax, capture, search, n, s, ?_, label, same⟩
  simp only [secondStage, captured, mapped, loaded, switched, ran, Option.bind_eq_bind,
    Option.bind_some]

/-- All its sectors are empty. -/
theorem kernel_handed_over_oneMode :
    ∃ returnAddress eax capture search n s,
      secondStage oneMode returnAddress eax capture search n (fun _ => 0#8) = some s ∧
      HandedOver (fun _ => 0#8) returnAddress s := by
  rcases oneMode_boots fun _ => 0#8 with ⟨atSearch, atKernel, boots, -⟩
  rcases boots.runs with ⟨returnAddress, eax, capture, search, n, s, ran, label, -⟩
  have reads : ReadsDisk oneMode fun _ => 0#8 := by
    rintro cx dh - cyl sect head bytes read i -
    obtain rfl := Option.some.inj read
    rfl
  exact ⟨returnAddress, eax, capture, search, n, s, ran, kernel_handed_over reads ran label⟩

/-- The number of a byte on the disk, without its upper bits. -/
def countingDisk (i : Nat) : BitVec 8 := BitVec.ofNat 8 i

/-- The machine with one mode, 18 sectors and 2 heads. -/
def countingBios : Bios :=
  { oneMode with
    readSectors := fun cyl sect head => some fun i =>
      countingDisk (512 * address 18 2 cyl.toNat head.toNat (sect.toNat - 1) + i) }

theorem countingBios_supports :
    Supports countingBios countingDisk (fun _ => 0#8) twoAnswers [0x0118#16] oneModeInfo := by
  refine ⟨?_, ⟨18, 1, rfl, by decide, by decide⟩, fun _ _ _ => ⟨_, rfl⟩, rfl, ?_, ?_, rfl⟩
  · rintro cx dh geometry cyl sect head bytes read i -
    obtain ⟨rfl, rfl⟩ := Prod.mk.inj (Option.some.inj geometry)
    obtain rfl := Option.some.inj read
    rfl
  · exact ⟨2, oneModeCaptured fun _ => 0#8, oneMode_captured _, by decide,
      modesAt_storeModes _ _ _, (storeModes_changed _ _ _).mono (by decide) (by decide)⟩
  · exact Or.inl ⟨⟨[], 0x0118#16, [], rfl, nofun, by decide, rfl⟩, by decide, by decide,
      by decide⟩

end Os88.Loader
