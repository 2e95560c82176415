/-
Module: Os88.Boot.HigherHalf
Purpose: The code of kernel/src/boot.s from `_loader` to the call of `kernel_main`, and the
  address space that the kernel starts in.
Trusted boundary: the boot loader enters `_loader` at its physical address, in protected mode
  with flat segments and without paging and PAE.  The linker puts the code, `_boot_pd` and the
  stack into the first 4 MB of the kernel.  Of the two routines called `_start`, the one behind
  `_loader` is meant.  Flags are left out.
Main exports: Layout, Register, Instruction, loader, start, Cpu, step, bootPd, Layout.Valid,
  Entered, Always, Mapped, Cut, push_spec, Started, loader_reaches_kernel
-/
import Os88.Library.Execution
import Os88.Library.LargePages

namespace Os88.Boot.HigherHalf

open ByteMemory
open Execution
open LargePages
open PageWalk

def KERNEL_VBASE : BitVec 32 := 0xC0000000

def KERNEL_PNUM : Nat := (KERNEL_VBASE >>> 22).toNat

/-- The dwords at `_boot_pd`. -/
def bootPd : List (BitVec 32) :=
  [0x00000083] ++ List.replicate (KERNEL_PNUM - 1) 0x00000000 ++
    [0x00000083] ++ List.replicate (1024 - KERNEL_PNUM - 1) 0x00000000

inductive Register where
  | eax
  | ebx
  | ecx
  | esp
  | cr0
  | cr3
  | cr4
deriving DecidableEq, Repr

/-- The instructions of the two routines, with the destination last. -/
inductive Instruction where
  | movImm (value : BitVec 32) (dst : Register)
  | mov (src dst : Register)
  | orl (value : BitVec 32) (dst : Register)
  | addl (value : BitVec 32) (dst : Register)
  | movStore (value address : BitVec 32)
  | invlpg (address : BitVec 32)
  | pushl (src : Register)
  | jmp (src : Register)
  | call (address : BitVec 32)

/-- Where the linker puts things.  `loader` has the physical addresses of the instructions at
`_loader`; the other addresses are those of the kernel. -/
structure Layout where
  loader : Nat → BitVec 32
  start : Nat → BitVec 32
  boot_pd : BitVec 32
  stack_top : BitVec 32
  kernel_main : BitVec 32

variable (l : Layout)

def loader : List Instruction :=
  [.movImm (l.boot_pd - KERNEL_VBASE) .ecx,
    .mov .ecx .cr3,
    .mov .cr4 .ecx,
    .orl 0x00000010 .ecx,
    .mov .ecx .cr4,
    .mov .cr0 .ecx,
    .orl 0x80000000 .ecx,
    .mov .ecx .cr0,
    .movImm (l.start 0) .ecx,
    .jmp .ecx]

def start : List Instruction :=
  [.movStore 0 l.boot_pd,
    .invlpg 0,
    .movImm l.stack_top .esp,
    .addl KERNEL_VBASE .ebx,
    .pushl .eax,
    .pushl .ebx,
    .call l.kernel_main]

inductive Place where
  | loader (n : Nat)
  | start (n : Nat)
  | kernel_main
deriving DecidableEq, Repr

def Place.next : Place → Place
  | .loader n => .loader (n + 1)
  | .start n => .start (n + 1)
  | .kernel_main => .kernel_main

structure Cpu where
  place : Place
  registers : Register → BitVec 32
  cache : Cache
  memory : Memory

namespace Cpu

def set (s : Cpu) (r : Register) (v : BitVec 32) : Cpu :=
  { s with registers := fun other => if other = r then v else s.registers other }

def paging (s : Cpu) : Bool := (s.registers .cr0).getLsbD 31

/-- The physical address that an access goes to. -/
def physical (s : Cpu) (write : Bool) (linear : BitVec 32) : Option (BitVec 32) :=
  if s.paging then
    translate ((s.registers .cr4).getLsbD 4) write s.memory (s.registers .cr3) s.cache linear
  else some linear

def store (s : Cpu) (address value : BitVec 32) : Option Cpu :=
  (storeDword (s.physical true) s.memory address value).map fun memory => { s with memory }

def push (s : Cpu) (value : BitVec 32) : Option Cpu :=
  (s.store (s.registers .esp - 4) value).map fun s => s.set .esp (s.registers .esp - 4)

@[simp] theorem set_self (s : Cpu) (r : Register) (v : BitVec 32) :
    (s.set r v).registers r = v :=
  if_pos rfl

@[simp] theorem set_memory (s : Cpu) (r : Register) (v : BitVec 32) :
    (s.set r v).memory = s.memory := rfl

theorem set_other (s : Cpu) {r other : Register} (different : other ≠ r) (v : BitVec 32) :
    (s.set r v).registers other = s.registers other :=
  if_neg different

end Cpu

/-- The instruction at a place, the address there, and where it was loaded to. -/
def fetch : Place → Option (Instruction × BitVec 32 × BitVec 32)
  | .loader n => (loader l)[n]?.map fun i => (i, l.loader n, l.loader n)
  | .start n => (start l)[n]?.map fun i => (i, l.start n, l.start n - KERNEL_VBASE)
  | .kernel_main => none

def execute (instruction : Instruction) (s : Cpu) : Option Cpu :=
  match instruction with
  | .movImm value dst => some (s.set dst value)
  | .mov src .cr3 => some { s.set .cr3 (s.registers src) with cache := fun _ => none }
  | .mov src dst => some (s.set dst (s.registers src))
  | .orl value dst => some (s.set dst (s.registers dst ||| value))
  | .addl value dst => some (s.set dst (s.registers dst + value))
  | .movStore value address => s.store address value
  | .invlpg address => some { s with cache := invalidate s.cache address }
  | .pushl src => s.push (s.registers src)
  | .jmp src => if s.registers src = l.start 0 then some { s with place := .start 0 } else none
  | .call address =>
      (s.push (l.start 7)).bind fun s =>
        if address = l.kernel_main then some { s with place := .kernel_main } else none

/-- One instruction.  With paging, the processor may first fill and empty its cache.  A fault
has no result: there is no table of interrupts yet. -/
def step (choose : BitVec 10 → Upkeep) (s : Cpu) : Option Cpu :=
  let s := if s.paging then
    { s with cache := upkeep choose s.memory (s.registers .cr3) s.cache } else s
  match fetch l s.place with
  | none => none
  | some (instruction, address, loaded) =>
      if s.physical false address = some loaded then
        execute l instruction { s with place := s.place.next }
      else none

/-! ## The directory -/

/-- Two marked cells among equal ones. -/
theorem getD_marked {α : Type} (mark blank : α) (n m i : Nat) :
    ([mark] ++ List.replicate n blank ++ [mark] ++ List.replicate m blank).getD i blank =
      if i = 0 ∨ i = n + 1 then mark else blank := by
  rw [List.append_assoc, List.append_assoc, List.getD_eq_getElem?_getD, List.singleton_append]
  cases i with
  | zero => rfl
  | succ i =>
      rw [List.getElem?_cons_succ, List.getElem?_append, List.length_replicate]
      by_cases before : i < n
      · rw [if_pos before, List.getElem?_replicate, if_pos before, if_neg (by omega)]
        rfl
      · rw [if_neg before, List.singleton_append]
        cases behind : i - n with
        | zero =>
            rw [if_pos (by omega)]
            rfl
        | succ j =>
            have unmarked : ¬ (i + 1 = 0 ∨ i + 1 = n + 1) := by omega
            rw [List.getElem?_cons_succ, List.getElem?_replicate, if_neg unmarked]
            split
            · rfl
            · rfl

/-- Only the first 4 MB and those of the kernel are mapped, both to the first 4 MB. -/
theorem bootPd_getD (i : Nat) :
    bootPd.getD i 0 = if i = 0 ∨ i = 768 then 0x00000083 else 0 :=
  getD_marked 0x00000083 0 767 255 i

/-- The code, the directory and the stack lie in the first 4 MB of the kernel, and the stack
holds three dwords apart from the directory. -/
structure Layout.Valid : Prop where
  loader : ∀ n < 10, (l.loader n).toNat < 2 ^ 22
  start : ∀ n < 7, KERNEL_VBASE.toNat ≤ (l.start n).toNat ∧
    (l.start n).toNat < KERNEL_VBASE.toNat + 2 ^ 22
  aligned : l.boot_pd.toNat % 4096 = 0
  boot_pd : KERNEL_VBASE.toNat ≤ l.boot_pd.toNat ∧
    l.boot_pd.toNat < KERNEL_VBASE.toNat + 2 ^ 22
  stack : KERNEL_VBASE.toNat + 12 ≤ l.stack_top.toNat ∧
    l.stack_top.toNat ≤ KERNEL_VBASE.toNat + 2 ^ 22
  apart : l.stack_top.toNat ≤ l.boot_pd.toNat ∨ l.boot_pd.toNat + 4096 + 12 ≤ l.stack_top.toNat

/-- The physical address of the directory. -/
def Layout.pd : BitVec 32 := l.boot_pd - KERNEL_VBASE

/-- What the boot loader leaves. -/
structure Entered (s : Cpu) : Prop where
  place : s.place = .loader 0
  paging : s.paging = false
  directory : WordsAt s.memory l.pd.toNat 1024 fun i => bootPd.getD i 0

section Addresses

variable {l} {linear : BitVec 32}

theorem vbase_toNat : KERNEL_VBASE.toNat = 3221225472 := rfl

theorem sub_vbase (lower : KERNEL_VBASE.toNat ≤ linear.toNat) :
    (linear - KERNEL_VBASE).toNat = linear.toNat - KERNEL_VBASE.toNat := by
  have bound := linear.isLt
  rw [BitVec.toNat_sub]
  omega

theorem directoryIndex_eq {i : Nat} (small : i < 1024) :
    directoryIndex linear = BitVec.ofNat 10 i ↔ linear.toNat / 2 ^ 22 = i := by
  rw [← directoryIndex_toNat]
  constructor
  · intro equal
    rw [equal, BitVec.toNat_ofNat, Nat.mod_eq_of_lt small]
  · intro equal
    apply BitVec.eq_of_toNat_eq
    rw [equal, BitVec.toNat_ofNat, Nat.mod_eq_of_lt small]

/-- The page that the mapped entries stand for. -/
theorem firstPage (linear : BitVec 32) :
    ((0x00000083 : BitVec 32).extractLsb' 22 10 ++ linear.extractLsb' 0 22 : BitVec 32).toNat =
      linear.toNat % 2 ^ 22 := by
  have first : (0x00000083 : BitVec 32).extractLsb' 22 10 = 0#10 := rfl
  rw [first, BitVec.toNat_append, BitVec.extractLsb'_toNat]
  simp

theorem Layout.Valid.pd_toNat (valid : l.Valid) :
    l.pd.toNat = l.boot_pd.toNat - KERNEL_VBASE.toNat :=
  sub_vbase valid.boot_pd.1

/-- Where an entry of the directory lies. -/
theorem Layout.Valid.entryAddress (valid : l.Valid) (index : BitVec 10) :
    entryAddress l.pd index = l.pd.toNat + 4 * index.toNat := by
  have aligned := valid.aligned
  have lower := valid.boot_pd.1
  have upper := valid.boot_pd.2
  have place := valid.pd_toNat
  rw [PageWalk.entryAddress, frame, BitVec.extractLsb'_toNat, Nat.shiftRight_eq_div_pow]
  rw [vbase_toNat] at *
  omega

theorem Layout.Valid.entryAt (valid : l.Valid) (m : Memory) (index : BitVec 10) :
    entryAt m l.pd index = load32 m (l.pd.toNat + 4 * index.toNat) := by
  rw [LargePages.entryAt, valid.entryAddress]

end Addresses

/-! ## Running -/

variable {l}

/-- Whatever the processor does to its cache, there is no fault within `n` instructions, and
what `P` says holds behind them. -/
def Always (l : Layout) (n : Nat) (P : Cpu → Prop) (s : Cpu) : Prop :=
  ∀ choices : List (BitVec 10 → Upkeep), choices.length = n →
    ∃ s', runAll (step l) choices s = some s' ∧ P s'

section Always

variable {P Q : Cpu → Prop} {n : Nat} {s s' : Cpu}

theorem Always.stop (reached : P s) : Always l 0 P s := by
  intro choices none_left
  rw [List.length_eq_zero_iff.mp none_left]
  exact ⟨s, rfl, reached⟩

theorem Always.step
    (stepped : ∀ choose, ∃ s', step l choose s = some s' ∧ Always l n P s') :
    Always l (n + 1) P s := by
  intro choices count
  cases choices with
  | nil => cases count
  | cons choose rest =>
      rcases stepped choose with ⟨s', ran, later⟩
      rcases later rest (Nat.succ.inj count) with ⟨s'', finished, reached⟩
      refine ⟨s'', ?_, reached⟩
      rw [runAll_cons, ran, Option.bind_some, finished]

end Always

/-! ## Before paging -/

section Unpaged

variable {s s' : Cpu} {n : Nat} {instruction : Instruction} {P : Cpu → Prop}

/-- Without paging an instruction is fetched where it is. -/
theorem step_unpaged (paging : s.paging = false) (place : s.place = .loader n)
    (fetched : (loader l)[n]? = some instruction)
    (executed : execute l instruction { s with place := .loader (n + 1) } = some s')
    (choose : BitVec 10 → Upkeep) : step l choose s = some s' := by
  have here : s.physical false (l.loader n) = some (l.loader n) := by
    rw [Cpu.physical, paging]
    rfl
  have found : fetch l (.loader n) = some (instruction, l.loader n, l.loader n) := by
    rw [fetch, fetched]
    rfl
  rw [step, paging, if_neg Bool.false_ne_true, place, found]
  dsimp only
  rw [if_pos here, Place.next, executed]

/-- What the first eight instructions leave: paging with large pages through the directory, and
an empty cache. -/
structure Switched (s s' : Cpu) : Prop where
  place : s'.place = .loader 8
  cr3 : s'.registers .cr3 = l.pd
  pse : (s'.registers .cr4).getLsbD 4 = true
  paging : s'.paging = true
  cache : s'.cache = fun _ => none
  memory : s'.memory = s.memory
  eax : s'.registers .eax = s.registers .eax
  ebx : s'.registers .ebx = s.registers .ebx

theorem switch_on (place : s.place = .loader 0) (paging : s.paging = false)
    (rest : ∀ s', Switched (l := l) s s' → Always l n P s') : Always l (n + 8) P s := by
  refine .step fun choose => ⟨_, step_unpaged paging place rfl rfl choose, ?_⟩
  refine .step fun choose => ⟨_, step_unpaged (by exact paging) rfl rfl rfl choose, ?_⟩
  refine .step fun choose => ⟨_, step_unpaged (by exact paging) rfl rfl rfl choose, ?_⟩
  refine .step fun choose => ⟨_, step_unpaged (by exact paging) rfl rfl rfl choose, ?_⟩
  refine .step fun choose => ⟨_, step_unpaged (by exact paging) rfl rfl rfl choose, ?_⟩
  refine .step fun choose => ⟨_, step_unpaged (by exact paging) rfl rfl rfl choose, ?_⟩
  refine .step fun choose => ⟨_, step_unpaged (by exact paging) rfl rfl rfl choose, ?_⟩
  refine .step fun choose => ⟨_, step_unpaged (by exact paging) rfl rfl rfl choose, ?_⟩
  refine rest _ ⟨rfl, rfl, ?_, ?_, rfl, rfl, rfl, rfl⟩
  · exact (BitVec.getLsbD_or ..).trans (Bool.or_true _)
  · exact (BitVec.getLsbD_or ..).trans (Bool.or_true _)

end Unpaged

/-! ## With paging -/

/-- Paging through the directory, whose first entry is `low`.  What is cached of that entry may
be stale. -/
structure Mapped (l : Layout) (low : BitVec 32) (s : Cpu) : Prop where
  paging : s.paging = true
  pse : (s.registers .cr4).getLsbD 4 = true
  cr3 : s.registers .cr3 = l.pd
  entries : ∀ index, entryAt s.memory l.pd index =
    if index = 0 then low else if index = 768 then 0x00000083 else 0
  coherent : ∀ index, index ≠ 0 → CoherentAt s.memory l.pd s.cache index

/-- The first 4 MB of the kernel. -/
def Window (linear : BitVec 32) : Prop :=
  KERNEL_VBASE.toNat ≤ linear.toNat ∧ linear.toNat < KERNEL_VBASE.toNat + 2 ^ 22

instance (linear : BitVec 32) : Decidable (Window linear) := inferInstanceAs (Decidable (_ ∧ _))

section Paged

variable {s s' : Cpu} {low linear address value : BitVec 32} {n : Nat}
  {instruction : Instruction}

theorem Window.directoryIndex (window : Window linear) : directoryIndex linear = 768 := by
  rcases window with ⟨lower, upper⟩
  rw [vbase_toNat] at lower upper
  exact (directoryIndex_eq (show 768 < 1024 by decide)).mpr (by omega)

theorem Mapped.upkeep (mapped : Mapped l low s) (choose : BitVec 10 → Upkeep) :
    Mapped l low { s with cache := upkeep choose s.memory (s.registers .cr3) s.cache } := by
  refine ⟨mapped.paging, mapped.pse, mapped.cr3, mapped.entries, fun index other => ?_⟩
  rw [mapped.cr3]
  exact (mapped.coherent index other).upkeep choose

/-- The kernel's addresses lead to the first 4 MB, whatever is cached. -/
theorem Mapped.window (mapped : Mapped l low s) (window : Window linear) (write : Bool) :
    s.physical write linear = some (linear - KERNEL_VBASE) := by
  have index := window.directoryIndex
  have coherent : CoherentAt s.memory l.pd s.cache (PageWalk.directoryIndex linear) := by
    rw [index]
    exact mapped.coherent 768 (by decide)
  have entry : entryAt s.memory l.pd (PageWalk.directoryIndex linear) = 0x00000083 := by
    rw [index, mapped.entries, if_neg (by decide), if_pos rfl]
  rw [Cpu.physical, mapped.paging, if_pos rfl, mapped.pse, mapped.cr3,
    translate_large coherent entry (by cases write <;> rfl) rfl]
  refine congrArg some (BitVec.eq_of_toNat_eq ?_)
  rw [firstPage, sub_vbase window.1]
  rcases window with ⟨lower, upper⟩
  rw [vbase_toNat] at *
  omega

/-- The first 4 MB lead to themselves as long as their entry is there. -/
theorem Mapped.identity (mapped : Mapped l 0x00000083 s)
    (coherent : CoherentAt s.memory l.pd s.cache 0) (small : linear.toNat < 2 ^ 22)
    (write : Bool) : s.physical write linear = some linear := by
  have index : PageWalk.directoryIndex linear = 0 :=
    (directoryIndex_eq (show 0 < 1024 by decide)).mpr (by omega)
  have coherent : CoherentAt s.memory l.pd s.cache (PageWalk.directoryIndex linear) := by
    rwa [index]
  have entry : entryAt s.memory l.pd (PageWalk.directoryIndex linear) = 0x00000083 := by
    rw [index, mapped.entries, if_pos rfl]
  rw [Cpu.physical, mapped.paging, if_pos rfl, mapped.pse, mapped.cr3,
    translate_large coherent entry (by cases write <;> rfl) rfl]
  refine congrArg some (BitVec.eq_of_toNat_eq ?_)
  rw [firstPage, Nat.mod_eq_of_lt small]

/-- Without it there is nothing but the kernel's addresses. -/
theorem Mapped.outside (mapped : Mapped l 0 s)
    (coherent : CoherentAt s.memory l.pd s.cache 0) (outside : ¬ Window linear) (write : Bool) :
    s.physical write linear = none := by
  have all : CoherentAt s.memory l.pd s.cache (PageWalk.directoryIndex linear) := by
    by_cases first : PageWalk.directoryIndex linear = 0
    · rwa [first]
    · exact mapped.coherent _ first
  have entry : entryAt s.memory l.pd (PageWalk.directoryIndex linear) = 0 := by
    rw [mapped.entries]
    split
    · rfl
    · have apart : PageWalk.directoryIndex linear ≠ 768 := by
        intro kernel
        have number := (directoryIndex_eq (show 768 < 1024 by decide)).mp kernel
        apply outside
        rw [Window, vbase_toNat]
        omega
      rw [if_neg apart]
  rw [Cpu.physical, mapped.paging, if_pos rfl, mapped.cr3, translate_absent all entry]

theorem Mapped.store (mapped : Mapped l low s) (lower : KERNEL_VBASE.toNat ≤ address.toNat)
    (upper : address.toNat + 4 ≤ KERNEL_VBASE.toNat + 2 ^ 22) (value : BitVec 32) :
    s.store address value =
      some { s with memory := store32 s.memory (address - KERNEL_VBASE).toNat value } := by
  have place := sub_vbase lower
  rw [vbase_toNat] at *
  have translated : ∀ j < 4, s.physical true (address + BitVec.ofNat 32 j) =
      some (address - KERNEL_VBASE + BitVec.ofNat 32 j) := by
    intro j small
    have offset : (address + BitVec.ofNat 32 j).toNat = address.toNat + j := by
      rw [BitVec.toNat_add, BitVec.toNat_ofNat]
      omega
    have window : Window (address + BitVec.ofNat 32 j) := by
      rw [Window, vbase_toNat, offset]
      omega
    rw [mapped.window window]
    congr 1
    bv_omega
  rw [Cpu.store, storeDword_of_translated (by omega) translated]
  rfl

/-- A store to the window that leaves the directory alone. -/
theorem Mapped.stored (mapped : Mapped l low s) (valid : l.Valid) {a : Nat}
    (apart : a + 4 ≤ l.pd.toNat ∨ l.pd.toNat + 4096 ≤ a) (value : BitVec 32) :
    Mapped l low { s with memory := store32 s.memory a value } := by
  have same : ∀ index, entryAt (store32 s.memory a value) l.pd index =
      entryAt s.memory l.pd index := by
    intro index
    have bound := index.isLt
    rw [valid.entryAt, valid.entryAt]
    exact load32_store32_apart _ _ value (by omega)
  refine ⟨mapped.paging, mapped.pse, mapped.cr3, fun index => ?_, fun index other => ?_⟩
  · exact (same index).trans (mapped.entries index)
  · exact (mapped.coherent index other).changed (same index)

/-- The first entry is replaced, and from then on what is cached of it may be stale. -/
theorem Mapped.replaced (mapped : Mapped l low s) (valid : l.Valid) (value : BitVec 32) :
    Mapped l value { s with memory := store32 s.memory l.pd.toNat value } := by
  have same : ∀ index, index ≠ 0 → entryAt (store32 s.memory l.pd.toNat value) l.pd index =
      entryAt s.memory l.pd index := by
    intro index other
    have positive : index.toNat ≠ 0 := fun zero => other (BitVec.eq_of_toNat_eq zero)
    rw [valid.entryAt, valid.entryAt]
    exact load32_store32_apart _ _ value (by omega)
  refine ⟨mapped.paging, mapped.pse, mapped.cr3, fun index => ?_, fun index other => ?_⟩
  · by_cases first : index = 0
    · subst first
      rw [if_pos rfl, valid.entryAt]
      exact load32_store32 value
    · have entry := mapped.entries index
      rw [if_neg first] at entry ⊢
      exact (same index first).trans entry
  · exact (mapped.coherent index other).changed (same index other)

theorem Mapped.set (mapped : Mapped l low s) {r : Register}
    (general : r ≠ .cr0 ∧ r ≠ .cr3 ∧ r ≠ .cr4) (value : BitVec 32) :
    Mapped l low (s.set r value) := by
  refine ⟨?_, ?_, ?_, mapped.entries, mapped.coherent⟩
  · rw [Cpu.paging, Cpu.set_other s general.1.symm]
    exact mapped.paging
  · rw [Cpu.set_other s general.2.2.symm]
    exact mapped.pse
  · rw [Cpu.set_other s general.2.1.symm]
    exact mapped.cr3

/-- With paging an instruction is fetched through the directory. -/
theorem step_paged (paging : s.paging = true) {loaded : BitVec 32}
    (fetched : fetch l s.place = some (instruction, address, loaded))
    (choose : BitVec 10 → Upkeep)
    (here : Cpu.physical { s with cache := upkeep choose s.memory (s.registers .cr3) s.cache }
      false address = some loaded) :
    step l choose s = execute l instruction
      { s with
        place := s.place.next
        cache := upkeep choose s.memory (s.registers .cr3) s.cache } := by
  rw [step, paging, if_pos rfl]
  dsimp only
  rw [fetched]
  dsimp only
  rw [if_pos here]

end Paged

/-! ## The run -/

/-- The kernel's directory, and nothing stale in the cache. -/
structure Cut (l : Layout) (s : Cpu) : Prop where
  mapped : Mapped l 0 s
  coherent : CoherentAt s.memory l.pd s.cache 0

section Run

variable {s s' : Cpu} {low : BitVec 32} {n k : Nat} {instruction : Instruction}
  {P : Cpu → Prop}

theorem Always.loader (valid : l.Valid) (mapped : Mapped l 0x00000083 s)
    (coherent : CoherentAt s.memory l.pd s.cache 0) (place : s.place = .loader n) (inside : n < 10)
    (fetched : (HigherHalf.loader l)[n]? = some instruction)
    (later : ∀ s', Mapped l 0x00000083 s' → CoherentAt s'.memory l.pd s'.cache 0 →
      s'.place = .loader (n + 1) → s'.registers = s.registers → s'.memory = s.memory →
      ∃ s'', execute l instruction s' = some s'' ∧ Always l k P s'') :
    Always l (k + 1) P s := by
  refine .step fun choose => ?_
  have settled := mapped.upkeep choose
  have settledLow : CoherentAt s.memory l.pd
      (LargePages.upkeep choose s.memory (s.registers .cr3) s.cache) 0 := by
    rw [mapped.cr3]
    exact coherent.upkeep choose
  have found : fetch l s.place = some (instruction, l.loader n, l.loader n) := by
    rw [place, fetch, fetched]
    rfl
  rw [step_paged mapped.paging found choose
    (settled.identity settledLow (valid.loader n inside) false)]
  exact later _ ⟨settled.paging, settled.pse, settled.cr3, settled.entries, settled.coherent⟩
    settledLow (by rw [place]; rfl) rfl rfl

theorem Always.start (valid : l.Valid) (mapped : Mapped l low s) (place : s.place = .start n)
    (inside : n < 7) (fetched : (HigherHalf.start l)[n]? = some instruction)
    (later : ∀ s', Mapped l low s' → (CoherentAt s.memory l.pd s.cache 0 →
        CoherentAt s'.memory l.pd s'.cache 0) →
      s'.place = .start (n + 1) → s'.registers = s.registers → s'.memory = s.memory →
      ∃ s'', execute l instruction s' = some s'' ∧ Always l k P s'') :
    Always l (k + 1) P s := by
  refine .step fun choose => ?_
  have settled := mapped.upkeep choose
  have found : fetch l s.place = some (instruction, l.start n, l.start n - KERNEL_VBASE) := by
    rw [place, fetch, fetched]
    rfl
  rw [step_paged mapped.paging found choose (settled.window (valid.start n inside) false)]
  refine later _ ⟨settled.paging, settled.pse, settled.cr3, settled.entries, settled.coherent⟩
    (fun coherent => ?_) (by rw [place]; rfl) rfl rfl
  rw [mapped.cr3]
  exact coherent.upkeep choose

theorem Always.cut (valid : l.Valid) (cut : Cut l s) (place : s.place = .start n)
    (inside : n < 7) (fetched : (HigherHalf.start l)[n]? = some instruction)
    (later : ∀ s', Cut l s' → s'.place = .start (n + 1) → s'.registers = s.registers →
      s'.memory = s.memory → ∃ s'', execute l instruction s' = some s'' ∧ Always l k P s'') :
    Always l (k + 1) P s :=
  .start valid cut.mapped place inside fetched fun s' mapped coherent place' registers memory =>
    later s' ⟨mapped, coherent cut.coherent⟩ place' registers memory

theorem Cut.set (cut : Cut l s) {r : Register} (general : r ≠ .cr0 ∧ r ≠ .cr3 ∧ r ≠ .cr4)
    (value : BitVec 32) : Cut l (s.set r value) :=
  ⟨cut.mapped.set general value, cut.coherent⟩

/-- Behind `invlpg (0)` nothing is stale any more. -/
theorem Mapped.cut (mapped : Mapped l 0 s) : Cut l { s with cache := invalidate s.cache 0 } := by
  refine ⟨⟨mapped.paging, mapped.pse, mapped.cr3, mapped.entries, fun index other => ?_⟩, ?_⟩
  · exact CoherentAt.invalidate fun _ => mapped.coherent index other
  · exact CoherentAt.invalidate fun other => absurd rfl other

theorem Switched.mapped (switched : Switched (l := l) s s') (valid : l.Valid)
    (entered : Entered l s) : Mapped l 0x00000083 s' := by
  refine ⟨switched.paging, switched.pse, switched.cr3, fun index => ?_, fun index _ => ?_⟩
  · have word : load32 s.memory (l.pd.toNat + 4 * index.toNat) = bootPd.getD index.toNat 0 :=
      entered.directory index.toNat index.isLt
    rw [switched.memory, valid.entryAt, word, bootPd_getD]
    by_cases first : index = 0
    · have zero : index.toNat = 0 := congrArg BitVec.toNat first
      rw [if_pos first, if_pos (Or.inl zero)]
    · have positive : index.toNat ≠ 0 := fun zero => first (BitVec.eq_of_toNat_eq zero)
      rw [if_neg first]
      by_cases kernel : index = 768
      · have number : index.toNat = 768 := congrArg BitVec.toNat kernel
        rw [if_pos kernel, if_pos (Or.inr number)]
      · have other : index.toNat ≠ 768 := fun number => kernel (BitVec.eq_of_toNat_eq number)
        rw [if_neg kernel, if_neg (by omega)]
  · rw [switched.cache]
    exact CoherentAt.empty

/-- The stack's dwords. -/
def Layout.stack (l : Layout) (n : Nat) : Nat := (l.stack_top - KERNEL_VBASE).toNat - 4 * n

theorem Layout.Valid.stack_dword (valid : l.Valid) (n : Nat) (few : n ≤ 3) :
    KERNEL_VBASE.toNat + 4 * n ≤ l.stack_top.toNat ∧
    (l.stack_top - BitVec.ofNat 32 (4 * n) - KERNEL_VBASE).toNat = l.stack n := by
  have lower := valid.stack.1
  have upper := valid.stack.2
  have top := sub_vbase (show KERNEL_VBASE.toNat ≤ l.stack_top.toNat by omega)
  have below : (l.stack_top - BitVec.ofNat 32 (4 * n)).toNat = l.stack_top.toNat - 4 * n := by
    rw [BitVec.toNat_sub, BitVec.toNat_ofNat]
    rw [vbase_toNat] at *
    omega
  refine ⟨by omega, ?_⟩
  rw [sub_vbase (by rw [below]; omega), below, Layout.stack, top]
  rw [vbase_toNat] at *
  omega

/-- A store that leaves the directory alone leaves what is cached of it right. -/
theorem coherentAt_stored (valid : l.Valid) {a : Nat}
    (apart : a + 4 ≤ l.pd.toNat ∨ l.pd.toNat + 4096 ≤ a) {m : Memory} {cache : Cache}
    {index : BitVec 10} (coherent : CoherentAt m l.pd cache index) (value : BitVec 32) :
    CoherentAt (store32 m a value) l.pd cache index := by
  refine coherent.changed ?_
  have bound := index.isLt
  rw [valid.entryAt, valid.entryAt]
  exact load32_store32_apart _ _ value (by omega)

/-- The state behind a push of the `n`-th dword. -/
structure Pushed (l : Layout) (n : Nat) (value : BitVec 32) (s s' : Cpu) : Prop where
  cut : Cut l s'
  place : s'.place = s.place
  esp : s'.registers .esp = l.stack_top - BitVec.ofNat 32 (4 * n)
  others : ∀ r, r ≠ .esp → s'.registers r = s.registers r
  memory : s'.memory = store32 s.memory (l.stack n) value

theorem push_spec (valid : l.Valid) (cut : Cut l s)
    (esp : s.registers .esp = l.stack_top - BitVec.ofNat 32 (4 * n)) (few : n < 3)
    (value : BitVec 32) :
    ∃ s', s.push value = some s' ∧ Pushed l (n + 1) value s s' := by
  rcases valid.stack_dword (n + 1) few with ⟨lower, place⟩
  have next : s.registers .esp - 4 = l.stack_top - BitVec.ofNat 32 (4 * (n + 1)) := by
    rw [esp]
    bv_omega
  have upper := valid.stack.2
  have address : (l.stack_top - BitVec.ofNat 32 (4 * (n + 1))).toNat =
      l.stack_top.toNat - 4 * (n + 1) := by
    rw [BitVec.toNat_sub, BitVec.toNat_ofNat]
    rw [vbase_toNat] at *
    omega
  have stored : s.store (l.stack_top - BitVec.ofNat 32 (4 * (n + 1))) value = _ :=
    cut.mapped.store (by omega) (by omega) value
  have apart : l.stack (n + 1) + 4 ≤ l.pd.toNat ∨ l.pd.toNat + 4096 ≤ l.stack (n + 1) := by
    have top := sub_vbase (show KERNEL_VBASE.toNat ≤ l.stack_top.toNat by omega)
    have directory := valid.pd_toNat
    have lowest := valid.boot_pd.1
    rw [Layout.stack, top, directory]
    rcases valid.apart with below | above
    · left
      omega
    · right
      omega
  rw [place] at stored
  refine ⟨Cpu.set { s with memory := store32 s.memory (l.stack (n + 1)) value } .esp
    (l.stack_top - BitVec.ofNat 32 (4 * (n + 1))), ?_, ?_⟩
  · rw [Cpu.push, next, stored]
    show some (Cpu.set _ .esp (s.registers .esp - 4)) = _
    rw [next]
  · refine ⟨⟨(cut.mapped.stored valid apart value).set (by decide) _, ?_⟩, rfl, Cpu.set_self ..,
      fun r other => Cpu.set_other _ other _, rfl⟩
    exact coherentAt_stored valid apart cut.coherent value

end Run

/-- `kernel_main` begins with its two arguments and the return address on the stack.  Nothing
else was stored but the first entry of the directory, and the kernel's addresses are the only
ones there are, whatever the processor does to its cache.  The address it is given leads to what
the boot loader put there as long as that lies in the first 4 MB. -/
structure Started (l : Layout) (s s' : Cpu) : Prop where
  place : s'.place = .kernel_main
  esp : s'.registers .esp = l.stack_top - 12
  eax : load32 s'.memory (l.stack 1) = s.registers .eax
  ebx : load32 s'.memory (l.stack 2) = s.registers .ebx + KERNEL_VBASE
  returns : load32 s'.memory (l.stack 3) = l.start 7
  others : ∀ a, (a < l.pd.toNat ∨ l.pd.toNat + 4 ≤ a) → (a < l.stack 3 ∨ l.stack 0 ≤ a) →
    s'.memory a = s.memory a
  mapped : ∀ choose write linear,
    Cpu.physical
      { s' with cache := upkeep choose s'.memory (s'.registers .cr3) s'.cache } write linear =
      if KERNEL_VBASE.toNat ≤ linear.toNat ∧ linear.toNat < KERNEL_VBASE.toNat + 2 ^ 22 then
        some (linear - KERNEL_VBASE)
      else none
  info : ∀ choose,
    Cpu.physical { s' with cache := upkeep choose s'.memory (s'.registers .cr3) s'.cache } false
        (s.registers .ebx + KERNEL_VBASE) =
      if (s.registers .ebx).toNat < 2 ^ 22 then some (s.registers .ebx) else none

theorem Cut.translation {s : Cpu} (cut : Cut l s) (choose : BitVec 10 → Upkeep) (write : Bool)
    (linear : BitVec 32) :
    Cpu.physical { s with cache := upkeep choose s.memory (s.registers .cr3) s.cache } write
        linear =
      if KERNEL_VBASE.toNat ≤ linear.toNat ∧ linear.toNat < KERNEL_VBASE.toNat + 2 ^ 22 then
        some (linear - KERNEL_VBASE)
      else none := by
  have settled := cut.mapped.upkeep choose
  show _ = if Window linear then some (linear - KERNEL_VBASE) else none
  by_cases window : Window linear
  · rw [if_pos window]
    exact settled.window window write
  · rw [if_neg window]
    refine settled.outside ?_ window write
    show CoherentAt s.memory l.pd (upkeep choose s.memory (s.registers .cr3) s.cache) 0
    rw [cut.mapped.cr3]
    exact cut.coherent.upkeep choose

/-- An address of the boot loader, as the kernel is given it. -/
theorem Cut.lowAddress {s : Cpu} (cut : Cut l s) (choose : BitVec 10 → Upkeep)
    (address : BitVec 32) :
    Cpu.physical { s with cache := upkeep choose s.memory (s.registers .cr3) s.cache } false
        (address + KERNEL_VBASE) =
      if address.toNat < 2 ^ 22 then some address else none := by
  have back : address + KERNEL_VBASE - KERNEL_VBASE = address := BitVec.add_sub_cancel ..
  have sum : (address + KERNEL_VBASE).toNat = (address.toNat + KERNEL_VBASE.toNat) % 2 ^ 32 :=
    BitVec.toNat_add ..
  have bound := address.isLt
  rw [cut.translation, back]
  rw [vbase_toNat] at *
  by_cases low : address.toNat < 2 ^ 22
  · rw [if_pos low, if_pos (by omega)]
  · rw [if_neg low, if_neg (by omega)]

section Reaching

variable {s s' : Cpu}

/-- `_start`, when its first instruction is about to run. -/
theorem start_reaches_kernel (valid : l.Valid) (mapped : Mapped l 0x00000083 s')
    (place : s'.place = .start 0) (eax : s'.registers .eax = s.registers .eax)
    (ebx : s'.registers .ebx = s.registers .ebx) (memory : s'.memory = s.memory) :
    Always l 7 (Started l s) s' := by
  have top := valid.boot_pd.2
  have aligned := valid.aligned
  -- the entry is removed
  refine .start valid mapped place (by decide) rfl fun s1 mapped1 _ place1 registers1 memory1 => ?_
  have removes := mapped1.store valid.boot_pd.1 (by rw [vbase_toNat] at *; omega) 0
  refine ⟨_, removes, ?_⟩
  -- and evicted
  refine .start valid (mapped1.replaced valid 0) place1 (by decide) rfl
    fun s2 mapped2 _ place2 registers2 memory2 => ⟨_, rfl, ?_⟩
  refine .cut valid mapped2.cut place2 (by decide) rfl
    fun s3 cut3 place3 registers3 memory3 => ⟨_, rfl, ?_⟩
  refine .cut valid (cut3.set (by decide) _) place3 (by decide) rfl
    fun s4 cut4 place4 registers4 memory4 => ⟨_, rfl, ?_⟩
  refine .cut valid (cut4.set (by decide) _) place4 (by decide) rfl
    fun s5 cut5 place5 registers5 memory5 => ?_
  have esp5 : s5.registers .esp = l.stack_top - BitVec.ofNat 32 (4 * 0) := by
    rw [registers5, Cpu.set_other _ (by decide), registers4, Cpu.set_self]
    simp
  have ebx5 : s5.registers .ebx = s.registers .ebx + KERNEL_VBASE := by
    rw [registers5, Cpu.set_self, registers4, Cpu.set_other _ (by decide), registers3,
      registers2, registers1, ebx]
  have eax5 : s5.registers .eax = s.registers .eax := by
    rw [registers5, Cpu.set_other _ (by decide), registers4, Cpu.set_other _ (by decide),
      registers3, registers2, registers1, eax]
  have memory5' : s5.memory = store32 s.memory l.pd.toNat 0 := by
    rw [memory5, Cpu.set_memory, memory4, Cpu.set_memory, memory3, memory2, memory1, memory]
    rfl
  rcases push_spec valid cut5 esp5 (by decide) (s5.registers .eax) with ⟨t1, pushed1, after1⟩
  refine ⟨t1, pushed1, ?_⟩
  refine .cut valid after1.cut (after1.place.trans place5) (by decide) rfl
    fun s6 cut6 place6 registers6 memory6 => ?_
  have esp6 : s6.registers .esp = l.stack_top - BitVec.ofNat 32 (4 * 1) := by
    rw [registers6, after1.esp]
  rcases push_spec valid cut6 esp6 (by decide) (s6.registers .ebx) with ⟨t2, pushed2, after2⟩
  refine ⟨t2, pushed2, ?_⟩
  refine .cut valid after2.cut (after2.place.trans place6) (by decide) rfl
    fun s7 cut7 place7 registers7 memory7 => ?_
  have esp7 : s7.registers .esp = l.stack_top - BitVec.ofNat 32 (4 * 2) := by
    rw [registers7, after2.esp]
  rcases push_spec valid cut7 esp7 (by decide) (l.start 7) with ⟨t3, pushed3, after3⟩
  refine ⟨{ t3 with place := .kernel_main }, ?_, .stop ?_⟩
  · rw [execute, pushed3, Option.bind_some, if_pos rfl]
  have ebx6 : s6.registers .ebx = s.registers .ebx + KERNEL_VBASE := by
    rw [registers6, after1.others .ebx (by decide), ebx5]
  have stored : t3.memory =
      store32 (store32 (store32 (store32 s.memory l.pd.toNat 0) (l.stack 1) (s.registers .eax))
        (l.stack 2) (s.registers .ebx + KERNEL_VBASE)) (l.stack 3) (l.start 7) := by
    rw [after3.memory, memory7, after2.memory, memory6, after1.memory, memory5', eax5, ebx6]
  have room := valid.stack.1
  have base := sub_vbase (show KERNEL_VBASE.toNat ≤ l.stack_top.toNat by omega)
  have first : l.stack 1 = l.stack 0 - 4 := rfl
  have second : l.stack 2 = l.stack 0 - 8 := rfl
  have third : l.stack 3 = l.stack 0 - 12 := rfl
  have enough : 12 ≤ l.stack 0 := by
    rw [Layout.stack, base]
    omega
  refine ⟨rfl, after3.esp, ?_, ?_, ?_, fun a directory stack => ?_,
    after3.cut.translation, fun choose => after3.cut.lowAddress choose (s.registers .ebx)⟩
  · show load32 t3.memory (l.stack 1) = _
    rw [stored, load32_store32_apart _ _ _ (by omega), load32_store32_apart _ _ _ (by omega),
      load32_store32]
  · show load32 t3.memory (l.stack 2) = _
    rw [stored, load32_store32_apart _ _ _ (by omega), load32_store32]
  · show load32 t3.memory (l.stack 3) = _
    rw [stored, load32_store32]
  · show t3.memory a = _
    rw [stored, store32_apart _ _ _ (by omega), store32_apart _ _ _ (by omega),
      store32_apart _ _ _ (by omega), store32_apart _ _ _ (by omega)]

/-- Every run of the code reaches the kernel. -/
theorem loader_reaches_kernel (valid : l.Valid) (entered : Entered l s) :
    Always l 17 (Started l s) s := by
  refine switch_on entered.place entered.paging fun s8 switched => ?_
  have low : CoherentAt s8.memory l.pd s8.cache 0 := by
    rw [switched.cache]
    exact CoherentAt.empty
  refine .loader valid (switched.mapped valid entered) low switched.place (by decide) rfl
    fun s9 mapped9 low9 place9 registers9 memory9 => ⟨_, rfl, ?_⟩
  refine .loader valid (mapped9.set (by decide) _) low9 place9 (by decide) rfl
    fun s10 mapped10 low10 place10 registers10 memory10 => ?_
  have target : s10.registers .ecx = l.start 0 := by
    rw [registers10, Cpu.set_self]
  have general : ∀ r, r ≠ .ecx → s10.registers r = s8.registers r := by
    intro r other
    rw [registers10, Cpu.set_other _ other, registers9]
  refine ⟨{ s10 with place := .start 0 }, if_pos target, ?_⟩
  refine start_reaches_kernel valid
    ⟨mapped10.paging, mapped10.pse, mapped10.cr3, mapped10.entries, mapped10.coherent⟩ rfl ?_ ?_ ?_
  · exact (general .eax (by decide)).trans switched.eax
  · exact (general .ebx (by decide)).trans switched.ebx
  · exact memory10.trans (memory9.trans switched.memory)

end Reaching

def someLayout : Layout :=
  ⟨fun n => 0x00100000 + BitVec.ofNat 32 n, fun n => 0xC0100100 + BitVec.ofNat 32 n, 0xC0102000,
    0xC0108000, 0xC0101000⟩

/-- Before paging, the cache may hold anything. -/
def enteredCpu : Cpu :=
  ⟨.loader 0, fun r => if r = .eax then 0x2BADB002 else if r = .ebx then 0x00009500 else 0,
    fun _ => some 0x12345083, fun a => if a = 0x102000 ∨ a = 0x102C00 then 0x83 else 0⟩

theorem enteredCpu_directory :
    WordsAt enteredCpu.memory someLayout.pd.toNat 1024 fun i => bootPd.getD i 0 := by
  intro i inside
  show load32 enteredCpu.memory (0x102000 + 4 * i) = bootPd.getD i 0
  have byte : ∀ a, enteredCpu.memory a = if a = 0x102000 ∨ a = 0x102C00 then 0x83 else 0 :=
    fun _ => rfl
  rw [bootPd_getD, load32, load16, load16, byte, byte, byte, byte,
    if_neg (by omega), if_neg (by omega), if_neg (by omega)]
  by_cases marked : i = 0 ∨ i = 768
  · rw [if_pos marked, if_pos (by omega)]
    rfl
  · rw [if_neg marked, if_neg (by omega)]
    rfl

theorem loader_reaches_kernel_entered :
    Always someLayout 17 (Started someLayout enteredCpu) enteredCpu := by
  refine loader_reaches_kernel ?_ ⟨rfl, rfl, enteredCpu_directory⟩
  refine ⟨fun n few => ?_, fun n few => ?_, by decide, by decide, by decide, by decide⟩
  · have offset : (someLayout.loader n).toNat = (0x00100000 + n % 2 ^ 32) % 2 ^ 32 :=
      BitVec.toNat_add ..
    omega
  · have offset : (someLayout.start n).toNat = (0xC0100100 + n % 2 ^ 32) % 2 ^ 32 :=
      BitVec.toNat_add ..
    rw [vbase_toNat]
    omega

end Os88.Boot.HigherHalf
