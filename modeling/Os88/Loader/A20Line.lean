/-
Module: Os88.Loader.A20Line
Purpose: `TestA20` of oldbootloader1.asm: what it returns with the address line on
  and off, and what it leaves in the memory and in the registers.
Trusted boundary: the flags and the program in memory are left out.  The second byte
  of a word at the end of a segment is the first byte of the segment.
Main exports: Registers, Machine, push, pop, call, ret, saveRegisters, probe, A20Exit, TestA20,
  Over, saveRegisters_spec, probe_spec, A20Exit_spec, testA20_exact
-/
import Os88.Library.SegmentedMemory

namespace Os88.Loader.A20

open ByteMemory
open SegmentedMemory

structure Registers where
  ax : BitVec 16
  bx : BitVec 16
  cx : BitVec 16
  dx : BitVec 16
  si : BitVec 16
  di : BitVec 16
  bp : BitVec 16
  sp : BitVec 16
  ip : BitVec 16
  cs : BitVec 16
  ds : BitVec 16
  es : BitVec 16
  ss : BitVec 16

structure Machine extends Registers where
  memory : Memory

/-- A register with another low byte. -/
def setLow (word : BitVec 16) (low : BitVec 8) : BitVec 16 :=
  word.extractLsb' 8 8 ++ low

def low (word : BitVec 16) : BitVec 8 := word.extractLsb' 0 8

@[simp] theorem low_setLow (word : BitVec 16) (ch : BitVec 8) : low (setLow word ch) = ch := by
  apply BitVec.eq_of_getLsbD_eq
  intro i bound
  simp only [low, setLow, BitVec.getLsbD_extractLsb', BitVec.getLsbD_append, bound,
    Nat.zero_add, decide_true, Bool.true_and, if_true]

section Program

variable (a20 : Bool)

def push (v : BitVec 16) (s : Machine) : Machine :=
  let sp := s.sp - 2#16
  { s with sp, memory := writeWord (physical a20 s.ss) s.memory sp v }

def pop (s : Machine) : BitVec 16 × Machine :=
  (readWord (physical a20 s.ss) s.memory s.sp, { s with sp := s.sp + 2#16 })

/-- `mov al, [seg:off]` and its like: the byte at an address. -/
def load (seg off : BitVec 16) (s : Machine) : BitVec 8 :=
  s.memory (physical a20 seg off)

def store (seg off : BitVec 16) (ch : BitVec 8) (s : Machine) : Machine :=
  { s with memory := store8 s.memory (physical a20 seg off) ch }

/-- `ip` is the address behind the `call` instruction. -/
def call (target : BitVec 16) (s : Machine) : Machine :=
  { push a20 s.ip s with ip := target }

def ret (s : Machine) : Machine :=
  let (ip, s) := pop a20 s
  { s with ip }

/-- The first six instructions behind `cli`. -/
def saveRegisters (s : Machine) : Machine :=
  let s := push a20 s.es s
  let s := push a20 s.di s
  let s := push a20 s.ds s
  let s := push a20 s.si s
  let s := push a20 s.bx s
  push a20 s.dx s

/-- `es:di` and `ds:si` are set to the same place, 1 MB apart. -/
def pointToBytes (s : Machine) : Machine :=
  let s := { s with dx := 0#16 }
  let s := { s with bx := 0#16 }
  let s := { s with es := s.bx }
  let s := { s with di := 0x0500#16 }
  let s := { s with bx := 0xFFFF#16 }
  let s := { s with ds := s.bx }
  { s with si := 0x0510#16 }

/-- `mov al, [seg:off]` and `push ax` -/
def pushByte (seg off : BitVec 16) (s : Machine) : Machine :=
  let s := { s with ax := setLow s.ax (load a20 seg off s) }
  push a20 s.ax s

/-- `pop ax` and `mov [seg:off], al` -/
def popByte (seg off : BitVec 16) (s : Machine) : Machine :=
  let (ax, s) := pop a20 s
  store a20 seg off (low ax) { s with ax }

/-- From the two writes to the label `A20Exit`. -/
def probe (s : Machine) : Machine :=
  let s := store a20 s.es s.di 0x00#8 s
  let s := store a20 s.ds s.si 0xFF#8 s
  let s := { s with bx := setLow s.bx (load a20 s.es s.di s) }
  if low s.bx = 0xFF#8 then s else { s with dx := 0x0001#16 }

/-- The seven pops behind `mov ax, dx`, of which the last one is the return. -/
def restoreRegisters (s : Machine) : Machine :=
  let (dx, s) := pop a20 s
  let (bx, s) := pop a20 { s with dx }
  let (si, s) := pop a20 { s with bx }
  let (ds, s) := pop a20 { s with si }
  let (di, s) := pop a20 { s with ds }
  let (es, s) := pop a20 { s with di }
  ret a20 { s with es }

def A20Exit (s : Machine) : Machine :=
  let s := popByte a20 s.ds s.si s
  let s := popByte a20 s.es s.di s
  let s := { s with ax := s.dx }
  restoreRegisters a20 s

/-- What follows the saving of the registers. -/
def testBytes (s : Machine) : Machine :=
  let s := pointToBytes s
  let s := pushByte a20 s.es s.di s
  let s := pushByte a20 s.ds s.si s
  A20Exit a20 (probe a20 s)

def TestA20 (s : Machine) : Machine := testBytes a20 (saveRegisters a20 s)

end Program

/-! ## The stack over the memory -/

/-- Below `top` the machine has the words on its stack, and outside the 18 bytes
that `TestA20` uses it holds what `base` holds. -/
structure Over (a20 : Bool) (base : Memory) (top : BitVec 16) (words : List (BitVec 16))
    (s : Machine) : Prop where
  sp : s.sp = top - BitVec.ofNat 16 (2 * words.length)
  stack : StackOn (physical a20 s.ss) base top 18 words s.memory

section Rules

variable {a20 : Bool} {base : Memory} {top w : BitVec 16} {words : List (BitVec 16)}
  {s : Machine}

theorem Over.push (held : Over a20 base top words s) (room : words.length < 9)
    (v : BitVec 16) : Over a20 base top (v :: words) (push a20 v s) := by
  have sp : s.sp - 2#16 = top - BitVec.ofNat 16 (2 * (words.length + 1)) := by
    have bound := top.isLt
    rw [held.sp]
    apply BitVec.eq_of_toNat_eq
    simp only [BitVec.toNat_sub, BitVec.toNat_ofNat]
    omega
  refine ⟨sp, ?_⟩
  have pushed := held.stack.push (fun _ _ same => physical_inj same) (by decide)
    (by omega) v
  rw [← sp] at pushed
  exact pushed

theorem Over.pop (held : Over a20 base top (w :: words) s) :
    pop a20 s = (w, { s with sp := s.sp + 2#16 }) ∧
      Over a20 base top words { s with sp := s.sp + 2#16 } := by
  have read := held.stack.pop
  have sp : s.sp = top - BitVec.ofNat 16 (2 * (words.length + 1)) := held.sp
  refine ⟨?_, ?_, read.2⟩
  · rw [A20.pop, sp, read.1]
  · have bound := top.isLt
    show s.sp + 2#16 = _
    rw [sp]
    apply BitVec.eq_of_toNat_eq
    simp only [BitVec.toNat_add, BitVec.toNat_sub, BitVec.toNat_ofNat]
    omega

theorem Over.store (held : Over a20 base top words s) (room : words.length ≤ 9)
    {seg off : BitVec 16}
    (outside : ¬ Below (physical a20 s.ss) top 18 (physical a20 seg off)) (ch : BitVec 8) :
    Over a20 (store8 base (physical a20 seg off) ch) top words (store a20 seg off ch s) :=
  ⟨held.sp, held.stack.store (by omega) outside ch⟩

theorem Over.load (held : Over a20 base top words s) {seg off : BitVec 16}
    (outside : ¬ Below (physical a20 s.ss) top 18 (physical a20 seg off)) :
    load a20 seg off s = base (physical a20 seg off) :=
  held.stack.outside _ outside

/-- Registers other than the stack pointer do not matter. -/
theorem Over.registers {s' : Machine} (held : Over a20 base top words s) (sp : s'.sp = s.sp)
    (ss : s'.ss = s.ss) (memory : s'.memory = s.memory) : Over a20 base top words s' := by
  refine ⟨sp.trans held.sp, ?_⟩
  rw [ss, memory]
  exact held.stack

/-- A popped word may go into a register. -/
theorem Over.popped {s' : Machine} (held : Over a20 base top (w :: words) s)
    (sp : s'.sp = s.sp + 2#16) (ss : s'.ss = s.ss) (memory : s'.memory = s.memory) :
    Over a20 base top words s' :=
  held.pop.2.registers sp ss memory

end Rules

section Parts

variable {a20 : Bool} {base : Memory} {top : BitVec 16} {s : Machine}

@[simp] theorem push_registers (a20 : Bool) (v : BitVec 16) (s : Machine) :
    (push a20 v s).toRegisters = { s.toRegisters with sp := s.sp - 2#16 } := rfl

theorem saveRegisters_spec {returnTo : BitVec 16} (held : Over a20 base top [returnTo] s) :
    Over a20 base top [s.dx, s.bx, s.si, s.ds, s.di, s.es, returnTo] (saveRegisters a20 s) ∧
      ∃ sp, (saveRegisters a20 s).toRegisters = { s.toRegisters with sp } := by
  have ran : saveRegisters a20 s = push a20 s.dx (push a20 s.bx (push a20 s.si
      (push a20 s.ds (push a20 s.di (push a20 s.es s))))) := by
    simp only [saveRegisters, push_registers]
  rw [ran]
  constructor
  · have held := held.push (by simp) s.es
    have held := held.push (by simp) s.di
    have held := held.push (by simp) s.ds
    have held := held.push (by simp) s.si
    have held := held.push (by simp) s.bx
    exact held.push (by simp) s.dx
  · exact ⟨_, by simp only [push_registers]; rfl⟩

theorem pushByte_spec {words : List (BitVec 16)} {seg off : BitVec 16}
    (held : Over a20 base top words s) (room : words.length < 9)
    (outside : ¬ Below (physical a20 s.ss) top 18 (physical a20 seg off)) :
    ∃ ax, low ax = base (physical a20 seg off) ∧
      Over a20 base top (ax :: words) (pushByte a20 seg off s) ∧
      (pushByte a20 seg off s).toRegisters =
        { s.toRegisters with ax, sp := s.sp - 2#16 } := by
  have loaded := held.load outside
  have moved : Over a20 base top words
      { s with ax := setLow s.ax (load a20 seg off s) } := held.registers rfl rfl rfl
  exact ⟨_, (low_setLow _ _).trans loaded, moved.push room _, rfl⟩

theorem popByte_spec {w : BitVec 16} {words : List (BitVec 16)} {seg off : BitVec 16}
    (held : Over a20 base top (w :: words) s) (room : words.length ≤ 9)
    (outside : ¬ Below (physical a20 s.ss) top 18 (physical a20 seg off)) :
    Over a20 (store8 base (physical a20 seg off) (low w)) top words (popByte a20 seg off s) ∧
      (popByte a20 seg off s).toRegisters =
        { s.toRegisters with ax := w, sp := s.sp + 2#16 } := by
  have moved : Over a20 base top words { s with sp := s.sp + 2#16, ax := w } :=
    held.popped rfl rfl rfl
  have stored := moved.store room outside (low w)
  rw [popByte, held.pop.1]
  exact ⟨stored, rfl⟩

/-- Popping the words of the caller's registers and the return address. -/
theorem restoreRegisters_spec {dx bx si ds di es returnTo : BitVec 16}
    (held : Over a20 base top [dx, bx, si, ds, di, es, returnTo] s) :
    Over a20 base top [] (restoreRegisters a20 s) ∧
      (restoreRegisters a20 s).toRegisters =
        { s.toRegisters with dx, bx, si, ds, di, es, ip := returnTo, sp := top } := by
  have heldDx : Over a20 base top [bx, si, ds, di, es, returnTo]
      { s with sp := s.sp + 2#16, dx } := held.popped rfl rfl rfl
  have heldBx : Over a20 base top [si, ds, di, es, returnTo]
      { s with sp := s.sp + 2#16 + 2#16, dx, bx } := heldDx.popped rfl rfl rfl
  have heldSi : Over a20 base top [ds, di, es, returnTo]
      { s with sp := s.sp + 2#16 + 2#16 + 2#16, dx, bx, si } := heldBx.popped rfl rfl rfl
  have heldDs : Over a20 base top [di, es, returnTo]
      { s with sp := s.sp + 2#16 + 2#16 + 2#16 + 2#16, dx, bx, si, ds } :=
    heldSi.popped rfl rfl rfl
  have heldDi : Over a20 base top [es, returnTo]
      { s with sp := s.sp + 2#16 + 2#16 + 2#16 + 2#16 + 2#16, dx, bx, si, ds, di } :=
    heldDs.popped rfl rfl rfl
  have heldEs : Over a20 base top [returnTo]
      { s with sp := s.sp + 2#16 + 2#16 + 2#16 + 2#16 + 2#16 + 2#16, dx, bx, si, ds, di, es } :=
    heldDi.popped rfl rfl rfl
  have left : Over a20 base top []
      { s with
        sp := s.sp + 2#16 + 2#16 + 2#16 + 2#16 + 2#16 + 2#16 + 2#16,
        dx, bx, si, ds, di, es, ip := returnTo } := heldEs.popped rfl rfl rfl
  have sp := left.sp
  have ran : restoreRegisters a20 s =
      { s with
        sp := s.sp + 2#16 + 2#16 + 2#16 + 2#16 + 2#16 + 2#16 + 2#16,
        dx, bx, si, ds, di, es, ip := returnTo } := by
    simp only [restoreRegisters, ret, held.pop.1, heldDx.pop.1, heldBx.pop.1, heldSi.pop.1,
      heldDs.pop.1, heldDi.pop.1, heldEs.pop.1]
  rw [ran]
  refine ⟨left, ?_⟩
  simpa using sp

/-- After the two writes the first byte is read again. -/
theorem probe_spec {words : List (BitVec 16)} (held : Over a20 base top words s)
    (room : words.length ≤ 9)
    (outside : ¬ Below (physical a20 s.ss) top 18 (physical a20 s.es s.di))
    (outside' : ¬ Below (physical a20 s.ss) top 18 (physical a20 s.ds s.si)) :
    Over a20 (store8 (store8 base (physical a20 s.es s.di) 0x00#8)
        (physical a20 s.ds s.si) 0xFF#8) top words (probe a20 s) ∧
      ∃ bx, (probe a20 s).toRegisters =
        { s.toRegisters with
          bx, dx := if physical a20 s.es s.di = physical a20 s.ds s.si then s.dx else 1#16 } := by
  have written := (held.store room outside 0x00#8).store room outside' 0xFF#8
  have read := (low_setLow s.bx (load a20 s.es s.di
    (store a20 s.ds s.si 0xFF#8 (store a20 s.es s.di 0x00#8 s)))).trans (written.load outside)
  by_cases wraps : physical a20 s.es s.di = physical a20 s.ds s.si
  · rw [wraps, store8_self] at read
    have ran : probe a20 s =
        { store a20 s.ds s.si 0xFF#8 (store a20 s.es s.di 0x00#8 s) with
          bx := setLow s.bx (load a20 s.es s.di
            (store a20 s.ds s.si 0xFF#8 (store a20 s.es s.di 0x00#8 s))) } := if_pos read
    rw [ran, if_pos wraps]
    exact ⟨written.registers rfl rfl rfl, _, rfl⟩
  · rw [store8_of_ne _ wraps, store8_self] at read
    have other : ¬ low (setLow s.bx (load a20 s.es s.di
        (store a20 s.ds s.si 0xFF#8 (store a20 s.es s.di 0x00#8 s)))) = 0xFF#8 := by
      rw [read]
      decide
    have ran : probe a20 s =
        { store a20 s.ds s.si 0xFF#8 (store a20 s.es s.di 0x00#8 s) with
          bx := setLow s.bx (load a20 s.es s.di
            (store a20 s.ds s.si 0xFF#8 (store a20 s.es s.di 0x00#8 s))),
          dx := 0x0001#16 } := if_neg other
    rw [ran, if_neg wraps]
    exact ⟨written.registers rfl rfl rfl, _, rfl⟩

theorem A20Exit_spec {first second dx bx si ds di es returnTo : BitVec 16}
    (held : Over a20 base top [second, first, dx, bx, si, ds, di, es, returnTo] s)
    (outside : ¬ Below (physical a20 s.ss) top 18 (physical a20 s.es s.di))
    (outside' : ¬ Below (physical a20 s.ss) top 18 (physical a20 s.ds s.si)) :
    Over a20 (store8 (store8 base (physical a20 s.ds s.si) (low second))
        (physical a20 s.es s.di) (low first)) top [] (A20Exit a20 s) ∧
      (A20Exit a20 s).toRegisters =
        { s.toRegisters with
          ax := s.dx, dx, bx, si, ds, di, es, ip := returnTo, sp := top } := by
  rcases popByte_spec held (by simp) outside' with ⟨held1, registers1⟩
  have es1 : (popByte a20 s.ds s.si s).es = s.es := by rw [registers1]
  have di1 : (popByte a20 s.ds s.si s).di = s.di := by rw [registers1]
  have ss1 : (popByte a20 s.ds s.si s).ss = s.ss := by rw [registers1]
  rw [← es1, ← di1, ← ss1] at outside
  rcases popByte_spec held1 (by simp) outside with ⟨held2, registers2⟩
  have moved : Over a20 _ top [dx, bx, si, ds, di, es, returnTo]
      { popByte a20 (popByte a20 s.ds s.si s).es (popByte a20 s.ds s.si s).di
          (popByte a20 s.ds s.si s) with
        ax := (popByte a20 (popByte a20 s.ds s.si s).es (popByte a20 s.ds s.si s).di
          (popByte a20 s.ds s.si s)).dx } := held2.registers rfl rfl rfl
  rcases restoreRegisters_spec moved with ⟨held3, registers3⟩
  rw [es1, di1] at held3 registers2
  refine ⟨held3, registers3.trans ?_⟩
  rw [es1, di1]
  simp only [registers2, registers1]

end Parts

/-! ## The test -/

/-- The two bytes are one when the addresses wrap around. -/
theorem tested_bytes_eq_iff (a20 : Bool) :
    physical a20 0#16 0x0500#16 = physical a20 0xFFFF#16 0x0510#16 ↔ a20 = false := by
  cases a20 <;> decide

/-- Putting the saved bytes back in the reverse order undoes the writes, be the two
places one or not. -/
theorem restored (base : Memory) (p q : Nat) (ch ch' : BitVec 8) :
    store8 (store8 (store8 (store8 base p ch) q ch') q (base q)) p (base p) = base := by
  funext a
  by_cases first : a = p
  · rw [first, store8_self]
  · rw [store8_of_ne _ first]
    by_cases second : a = q
    · rw [second, store8_self]
    · rw [store8_of_ne _ second, store8_of_ne _ second, store8_of_ne _ first]

/-- The segments and the offsets of the two bytes, and the stack segment. -/
structure PointsToBytes (ss : BitVec 16) (s : Machine) : Prop where
  es : s.es = 0#16
  di : s.di = 0x0500#16
  ds : s.ds = 0xFFFF#16
  si : s.si = 0x0510#16
  ss : s.ss = ss

theorem PointsToBytes.of_registers {ss : BitVec 16} {s s' : Machine}
    (points : PointsToBytes ss s) (es : s'.es = s.es) (di : s'.di = s.di) (ds : s'.ds = s.ds)
    (si : s'.si = s.si) (same : s'.ss = s.ss) : PointsToBytes ss s' :=
  ⟨es.trans points.es, di.trans points.di, ds.trans points.ds, si.trans points.si,
    same.trans points.ss⟩

/-- The writes are undone, and `ax` tells whether they met. -/
theorem testBytes_spec {a20 : Bool} {base : Memory} {top : BitVec 16} {s : Machine}
    {dx bx si ds di es returnTo : BitVec 16}
    (held : Over a20 base top [dx, bx, si, ds, di, es, returnTo] s)
    (outside : ¬ Below (physical a20 s.ss) top 18 (physical a20 0#16 0x0500#16))
    (outside' : ¬ Below (physical a20 s.ss) top 18 (physical a20 0xFFFF#16 0x0510#16)) :
    Over a20 base top [] (testBytes a20 s) ∧
      (testBytes a20 s).toRegisters =
        { s.toRegisters with
          ax := if a20 then 1#16 else 0#16, dx, bx, si, ds, di, es, ip := returnTo,
          sp := top } := by
  have pointed : Over a20 base top [dx, bx, si, ds, di, es, returnTo] (pointToBytes s) :=
    held.registers rfl rfl rfl
  have points1 : PointsToBytes s.ss (pointToBytes s) := ⟨rfl, rfl, rfl, rfl, rfl⟩
  have registers1 : (pointToBytes s).toRegisters =
      { s.toRegisters with
        bx := 0xFFFF#16, dx := 0#16, si := 0x0510#16, di := 0x0500#16, ds := 0xFFFF#16,
        es := 0#16 } := rfl
  rw [testBytes]
  generalize pointToBytes s = s1 at pointed points1 registers1
  have apart1 : ¬ Below (physical a20 s1.ss) top 18 (physical a20 s1.es s1.di) := by
    rw [points1.ss, points1.es, points1.di]
    exact outside
  rcases pushByte_spec pointed (by simp) apart1 with ⟨first, saved, pushed, registers2⟩
  have points2 : PointsToBytes s.ss (pushByte a20 s1.es s1.di s1) :=
    points1.of_registers (by rw [registers2]) (by rw [registers2]) (by rw [registers2])
      (by rw [registers2]) (by rw [registers2])
  simp only
  generalize pushByte a20 s1.es s1.di s1 = s2 at pushed registers2 points2 ⊢
  have apart2 : ¬ Below (physical a20 s2.ss) top 18 (physical a20 s2.ds s2.si) := by
    rw [points2.ss, points2.ds, points2.si]
    exact outside'
  rcases pushByte_spec pushed (by simp) apart2 with ⟨second, saved', pushed', registers3⟩
  have points3 : PointsToBytes s.ss (pushByte a20 s2.ds s2.si s2) :=
    points2.of_registers (by rw [registers3]) (by rw [registers3]) (by rw [registers3])
      (by rw [registers3]) (by rw [registers3])
  generalize pushByte a20 s2.ds s2.si s2 = s3 at pushed' registers3 points3 ⊢
  rcases probe_spec pushed' (by simp)
      (by rw [points3.ss, points3.es, points3.di]; exact outside)
      (by rw [points3.ss, points3.ds, points3.si]; exact outside') with
    ⟨probed, bx', registers4⟩
  have points4 : PointsToBytes s.ss (probe a20 s3) :=
    points3.of_registers (by rw [registers4]) (by rw [registers4]) (by rw [registers4])
      (by rw [registers4]) (by rw [registers4])
  generalize probe a20 s3 = s4 at probed registers4 points4 ⊢
  rcases A20Exit_spec probed (by rw [points4.ss, points4.es, points4.di]; exact outside)
      (by rw [points4.ss, points4.ds, points4.si]; exact outside') with ⟨left, registers5⟩
  rw [points3.es, points3.di, points3.ds, points3.si, points4.es, points4.di, points4.ds,
    points4.si, saved', points2.ds, points2.si, saved, points1.es, points1.di, restored] at left
  refine ⟨left, registers5.trans ?_⟩
  have answer : s4.dx = if a20 then 1#16 else 0#16 := by
    have dx3 : s3.dx = 0#16 := by simp only [registers3, registers2, registers1]
    have dx4 : s4.dx =
        if physical a20 s3.es s3.di = physical a20 s3.ds s3.si then s3.dx else 1#16 := by
      rw [registers4]
    rw [dx4, dx3, points3.es, points3.di, points3.ds, points3.si]
    cases a20 <;> rfl
  rw [answer]
  simp only [registers4, registers3, registers2, registers1]

/-- `TestA20`, called with neither of the two bytes among the 18 bytes of stack that
the call uses, tells whether the line is on, and changes nothing but `ax` and those
bytes. -/
theorem testA20_exact (a20 : Bool) (target : BitVec 16) (s : Machine)
    (outside : ¬ Below (physical a20 s.ss) s.sp 18 (physical a20 0#16 0x0500#16))
    (outside' : ¬ Below (physical a20 s.ss) s.sp 18 (physical a20 0xFFFF#16 0x0510#16)) :
    (TestA20 a20 (call a20 target s)).ax = (if a20 then 1#16 else 0#16) ∧
    (∀ a, ¬ Below (physical a20 s.ss) s.sp 18 a →
      (TestA20 a20 (call a20 target s)).memory a = s.memory a) ∧
    (TestA20 a20 (call a20 target s)).toRegisters =
      { s.toRegisters with ax := (TestA20 a20 (call a20 target s)).ax } := by
  have start : Over a20 s.memory s.sp [] s := ⟨by simp, StackOn.empty _ _ _⟩
  have called : Over a20 s.memory s.sp [s.ip] (call a20 target s) :=
    (start.push (by decide) s.ip).registers rfl rfl rfl
  rcases saveRegisters_spec called with ⟨saved, sp, registers⟩
  have ss : (saveRegisters a20 (call a20 target s)).ss = s.ss := by rw [registers]; rfl
  rw [← ss] at outside outside'
  rcases testBytes_spec saved outside outside' with ⟨left, registers'⟩
  have whole : (TestA20 a20 (call a20 target s)).toRegisters =
      { s.toRegisters with ax := if a20 then 1#16 else 0#16 } := by
    rw [TestA20, registers', registers]
    rfl
  have sameStack : (TestA20 a20 (call a20 target s)).ss = s.ss := by rw [whole]
  refine ⟨by rw [whole], fun a elsewhere => ?_, by rw [whole]⟩
  rw [← sameStack] at elsewhere
  exact left.stack.outside a elsewhere

/-- A stack from 0x7C00 down, with the line off. -/
theorem testA20_exact_off :
    ¬ Below (physical false 0#16) 0x7C00#16 18 (physical false 0#16 0x0500#16) ∧
    ¬ Below (physical false 0#16) 0x7C00#16 18 (physical false 0xFFFF#16 0x0510#16) ∧
    ∀ memory : Memory, (TestA20 false (call false 0x7D00#16
      { ax := 0#16, bx := 1#16, cx := 2#16, dx := 3#16, si := 4#16, di := 5#16, bp := 6#16,
        sp := 0x7C00#16, ip := 0x7C80#16, cs := 0#16, ds := 0#16, es := 7#16, ss := 0#16,
        memory })).ax = 0#16 := by
  have below : ∀ {a}, Below (physical false 0#16) 0x7C00#16 18 a → 0x7BEE ≤ a := by
    rintro a ⟨k, above, within, position⟩
    rw [position]
    simp only [physical, Bool.false_eq_true, if_false, BitVec.toNat_sub, BitVec.toNat_ofNat]
    omega
  have outside : ¬ Below (physical false 0#16) 0x7C00#16 18 (physical false 0#16 0x0500#16) :=
    fun inside => absurd (below inside) (by decide)
  have outside' : ¬ Below (physical false 0#16) 0x7C00#16 18
      (physical false 0xFFFF#16 0x0510#16) := fun inside => absurd (below inside) (by decide)
  refine ⟨outside, outside', fun memory => ?_⟩
  have tested := testA20_exact false 0x7D00#16
    { ax := 0#16, bx := 1#16, cx := 2#16, dx := 3#16, si := 4#16, di := 5#16, bp := 6#16,
      sp := 0x7C00#16, ip := 0x7C80#16, cs := 0#16, ds := 0#16, es := 7#16, ss := 0#16,
      memory } outside outside'
  rw [tested.1]
  rfl

end Os88.Loader.A20
