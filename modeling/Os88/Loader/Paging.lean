/-
Module: Os88.Loader.Paging
Purpose: Paging in the second-stage loader: the page tables that are filled in
  real mode, and the protected-mode code from `BEGIN_PM` to the call of the
  kernel, which fills further tables and rewrites the page directory in use.
Trusted boundary: the real-mode `ds` is 0, string instructions go upwards, and
  memory below 6 MB is RAM.  The saved `es` on the stack is left out.
Main exports: EnablePaging, Cpu, step, run, beginPm
-/
import Os88.Library.Execution
import Os88.Library.PageWalk

namespace Os88.Loader

open ByteMemory
open Execution
open PageWalk

/-! ## Real mode -/

/-- The loops `.paging_loop0` to `.paging_loop2`: `cx` dwords from `es:di` on, of
which each is `step` more than the one before. -/
def fillTable (es : BitVec 16) (step : BitVec 32) :
    Nat → BitVec 16 → BitVec 32 → Memory → Memory
  | 0, _, _, memory => memory
  | cx + 1, di, esi, memory =>
      fillTable es step cx (di + 4) (esi + step)
        (store32 memory (16 * es.toNat + di.toNat) esi)

/-- `.paging_loop0` stores the constant. -/
def pagingLoop0 : Memory → Memory := fillTable 0x2900 0 1024 0 0x00000002

def pagingLoop1 : Memory → Memory := fillTable 0x2A00 0x1000 1024 0 0x00000003

def pagingLoop2 : Memory → Memory := fillTable 0x2B00 0x1000 1024 0 0x00400003

/-- Directory entries 0 and 1. -/
def loadPageTables (memory : Memory) : Memory :=
  store32 (store32 memory 0x29000 0x2A003) 0x29004 0x2B003

/-- `mov dword [page_directory], 0x29000` -/
def loadPageDirectory (memory : Memory) : Memory := store32 memory 0x860A 0x29000

/-- The memory when paging is switched on. -/
def EnablePaging (memory : Memory) : Memory :=
  loadPageDirectory (loadPageTables (pagingLoop2 (pagingLoop1 (pagingLoop0 memory))))

/-! ## Protected mode -/

def cr3 : BitVec 32 := 0x29000

/-- Where the code stands: before the next byte of `rep movsb`, at a label, or
in the kernel. -/
inductive Label where
  | repMovsb
  | fillPageTables
  | pagingLoop3
  | loadAllPageTables
  | pagingLoop4
  | callKernel
  | kernel
deriving DecidableEq, Repr

structure Cpu where
  label : Label
  eax : BitVec 32
  ecx : BitVec 32
  esi : BitVec 32
  edi : BitVec 32
  esp : BitVec 32
  memory : Memory

namespace Cpu

/-- The body of `.paging_loop3` and `.paging_loop4`, and where `loop` goes. -/
def storeEntry (next : Label) (s : Cpu) : Option Cpu := do
  let memory ← writeDword s.memory cr3 s.esi s.eax
  let s :=
    { s with
      memory := memory
      esi := s.esi + 4
      eax := s.eax + 0x1000
      ecx := s.ecx - 1 }
  return if s.ecx = 0 then { s with label := next } else s

/-- `rep movsb`, one byte of it. -/
def movsb (s : Cpu) : Option Cpu :=
  if s.ecx = 0 then some { s with label := .fillPageTables }
  else do
    let byte ← readByte s.memory cr3 s.esi
    let memory ← writeByte s.memory cr3 s.edi byte
    return { s with
      memory := memory
      esi := s.esi + 1
      edi := s.edi + 1
      ecx := s.ecx - 1 }

def fillPageTables (s : Cpu) : Cpu :=
  { s with
    esi := 0x200000
    ecx := 1048576
    eax := 0x00000003
    label := .pagingLoop3 }

def loadAllPageTables (s : Cpu) : Cpu :=
  { s with
    ecx := 1024
    eax := 0x200003
    esi := 0x29000
    label := .pagingLoop4 }

/-- `mov eax, kernel_info_block` and `call 0x100000` -/
def callKernel (returnAddress : BitVec 32) (s : Cpu) : Option Cpu := do
  let memory ← writeDword s.memory cr3 (s.esp - 4) returnAddress
  return { s with
    memory := memory
    eax := 0x8200
    esp := s.esp - 4
    label := .kernel }

end Cpu

/-- One step, unless it faults.  In the kernel the loader has nothing left to
do. -/
def step (returnAddress : BitVec 32) (s : Cpu) : Option Cpu :=
  match s.label with
  | .repMovsb => s.movsb
  | .fillPageTables => some s.fillPageTables
  | .pagingLoop3 => s.storeEntry .loadAllPageTables
  | .loadAllPageTables => some s.loadAllPageTables
  | .pagingLoop4 => s.storeEntry .callKernel
  | .callKernel => s.callKernel returnAddress
  | .kernel => some s

/-- `n` steps. -/
def run (returnAddress : BitVec 32) (n : Nat) (s : Cpu) : Option Cpu :=
  countLoop (fun _ => step returnAddress) 0 n s

/-- The label `BEGIN_PM`, with the registers it loads. -/
def beginPm (eax : BitVec 32) (memory : Memory) : Cpu where
  label := .repMovsb
  eax := eax
  ecx := 512 * 240
  esi := 0x9000
  edi := 0x100000
  esp := 0x1F0000
  memory := EnablePaging memory

end Os88.Loader
