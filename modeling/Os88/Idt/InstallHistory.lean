/-
Module: Os88.Idt.InstallHistory
Purpose: The table at IDT_BASE after any history of idt_install_interrupt
  calls, in any order and with repetitions.
Trusted boundary: none
Main exports: Install, installAll, lastInstall, tableSize, Installed, Records,
  install_records, install_history
-/
import Mathlib.Data.List.Induction
import Os88.Idt.Model

namespace Os88.Idt

open ByteMemory

/-- One call of `idt_install_interrupt`. -/
structure Install where
  number : Nat
  isr : BitVec 32
  typeAttr : BitVec 8
deriving DecidableEq, Repr

def Install.run (install : Install) (st : IdtState) : IdtState :=
  idtInstallInterrupt install.number install.isr install.typeAttr st

/-- The state after a history of installations from boot. -/
def installAll (opcodes : Opcodes) (mem : Memory) (history : List Install) :
    IdtState :=
  history.foldl (fun st install => install.run st) (IdtState.boot opcodes mem)

/-- The last installation of a number. -/
def lastInstall (history : List Install) (n : Nat) : Option Install :=
  (history.filter fun install => install.number = n).getLast?

/-- One more than the largest number installed. -/
def tableSize (history : List Install) : Nat :=
  history.foldl (fun size install => max size (install.number + 1)) 0

/-- The gate at an index of the table at IDT_BASE. -/
def gateAt (st : IdtState) (n : Nat) : IdtGateDescriptor :=
  loadGate st.mem (gateAddress IDT_BASE n)

/-- The wrapper at an index of the wrapper array. -/
def wrapperAt (st : IdtState) (n : Nat) : IsrWrapper :=
  loadWrapper st.mem (wrapperAddress n)

/-- Gate `n` and wrapper `n` are as the installation wants them. -/
structure Installed (opcodes : Opcodes) (st : IdtState) (n : Nat)
    (install : Install) : Prop where
  segmentSelector : (gateAt st n).segmentSelector = 0x08
  zero : (gateAt st n).zero = 0
  typeAttr : (gateAt st n).typeAttr = install.typeAttr
  offset : (gateAt st n).offset.toNat = wrapperAddress n
  wrapper : wrapperAt st n = { opcodes.wrapper with isrAddr := install.isr }

/-! ## Histories -/

theorem lastInstall_concat (history : List Install) (install : Install)
    (n : Nat) :
    lastInstall (history ++ [install]) n =
      if install.number = n then some install else lastInstall history n := by
  by_cases same : install.number = n
  · simp [lastInstall, same]
  · simp [lastInstall, same]

theorem tableSize_concat (history : List Install) (install : Install) :
    tableSize (history ++ [install]) =
      max (tableSize history) (install.number + 1) := by
  simp [tableSize]

theorem number_lt_tableSize {history : List Install} {install : Install}
    (member : install ∈ history) : install.number < tableSize history := by
  induction history using List.reverseRecOn with
  | nil => simp at member
  | append_singleton history last inductionHypothesis =>
      rw [tableSize_concat]
      rcases List.mem_append.mp member with earlier | now
      · have bound := inductionHypothesis earlier
        omega
      · rw [List.mem_singleton.mp now]
        omega

theorem lastInstall_lt_tableSize {history : List Install} {n : Nat}
    {install : Install} (last : lastInstall history n = some install) :
    n < tableSize history := by
  have member := List.mem_of_getLast? last
  rcases List.mem_filter.mp member with ⟨inHistory, same⟩
  rw [← of_decide_eq_true same]
  exact number_lt_tableSize inHistory

theorem tableSize_of_top {history : List Install} {top : Install}
    (member : top ∈ history)
    (largest : ∀ install ∈ history, install.number ≤ top.number) :
    tableSize history = top.number + 1 := by
  have lower := number_lt_tableSize member
  have upper : ∀ bound, (∀ install ∈ history, install.number < bound) →
      tableSize history ≤ bound := by
    intro bound below
    clear lower largest member
    induction history using List.reverseRecOn with
    | nil => exact Nat.zero_le bound
    | append_singleton history last inductionHypothesis =>
        rw [tableSize_concat]
        have before := inductionHypothesis fun install member =>
          below install (List.mem_append_left _ member)
        have now := below last (by simp)
        omega
  have bounded := upper (top.number + 1) fun install member =>
    Nat.lt_succ_of_le (largest install member)
  omega

/-! ## Gates and wrappers in memory -/

section Layout

variable {mem mem' : Memory}

theorem loadGate_of_changed {lo hi gate : Nat}
    (changed : ChangedWithin lo hi mem mem') (apart : gate + 8 ≤ lo ∨ hi ≤ gate) :
    loadGate mem' gate = loadGate mem gate := by
  simp only [loadGate, changed.load16 (a := gate) (by omega),
    changed.load16 (a := gate + 2) (by omega),
    changed.load8 (a := gate + 4) (by omega),
    changed.load8 (a := gate + 5) (by omega),
    changed.load16 (a := gate + 6) (by omega)]

theorem loadWrapper_of_changed {lo hi wrapper : Nat}
    (changed : ChangedWithin lo hi mem mem')
    (apart : wrapper + 11 ≤ lo ∨ hi ≤ wrapper) :
    loadWrapper mem' wrapper = loadWrapper mem wrapper := by
  simp only [loadWrapper, changed.load8 (a := wrapper) (by omega),
    changed.load8 (a := wrapper + 1) (by omega),
    changed.load8 (a := wrapper + 2) (by omega),
    changed.load32 (a := wrapper + 3) (by omega),
    changed.load16 (a := wrapper + 7) (by omega),
    changed.load8 (a := wrapper + 9) (by omega),
    changed.load8 (a := wrapper + 10) (by omega)]

theorem setIdtGate_changed (gate : Nat) (offset : BitVec 32)
    (segment : BitVec 16) (typeAttr : BitVec 8) (st : IdtState) :
    ChangedWithin gate (gate + 8) st.mem
      (setIdtGate gate offset segment typeAttr st).mem := by
  unfold setIdtGate
  refine ((((ChangedWithin.store16 _ ?_ ?_).trans
    (ChangedWithin.store16 _ ?_ ?_)).trans (ChangedWithin.store16 _ ?_ ?_)).trans
      (ChangedWithin.store8 _ ?_ ?_)).trans (ChangedWithin.store8 _ ?_ ?_) <;>
    omega

theorem storeWrapper_changed (mem : Memory) (wrapper : Nat) (value : IsrWrapper) :
    ChangedWithin wrapper (wrapper + 11) mem (storeWrapper mem wrapper value) := by
  unfold storeWrapper
  refine ((((((ChangedWithin.store8 _ ?_ ?_).trans
    (ChangedWithin.store8 _ ?_ ?_)).trans (ChangedWithin.store8 _ ?_ ?_)).trans
      (ChangedWithin.store32 _ ?_ ?_)).trans (ChangedWithin.store16 _ ?_ ?_)).trans
        (ChangedWithin.store8 _ ?_ ?_)).trans (ChangedWithin.store8 _ ?_ ?_) <;>
    omega

theorem loadGate_setIdtGate (gate : Nat) (offset : BitVec 32)
    (segment : BitVec 16) (typeAttr : BitVec 8) (st : IdtState) :
    loadGate (setIdtGate gate offset segment typeAttr st).mem gate =
      ⟨((offset <<< 16) >>> 16).setWidth 16, segment, 0, typeAttr,
        (offset >>> 16).setWidth 16⟩ := by
  simp (disch := omega) only [loadGate, setIdtGate, load16_store16,
    load16_store8_apart, load16_store16_apart, store8_self, store8_of_ne]

theorem loadWrapper_storeWrapper (mem : Memory) (wrapper : Nat)
    (value : IsrWrapper) :
    loadWrapper (storeWrapper mem wrapper value) wrapper = value := by
  simp (disch := omega) only [loadWrapper, storeWrapper, load16_store16,
    load32_store32, load16_store8_apart, load32_store8_apart,
    load32_store16_apart, store16_apart, store32_apart, store8_self, store8_of_ne]

/-- The two halves a gate stores make up the offset it was given. -/
theorem offset_of_halves (offset : BitVec 32) (segment : BitVec 16)
    (zero typeAttr : BitVec 8) :
    (IdtGateDescriptor.mk (((offset <<< 16) >>> 16).setWidth 16) segment zero
      typeAttr ((offset >>> 16).setWidth 16)).offset = offset := by
  have low : ((offset <<< 16) >>> 16).setWidth 16 = offset.extractLsb' 0 16 := by
    apply BitVec.eq_of_toNat_eq
    simp only [BitVec.toNat_setWidth, BitVec.toNat_ushiftRight,
      BitVec.toNat_shiftLeft, BitVec.extractLsb'_toNat, Nat.shiftLeft_eq,
      Nat.shiftRight_eq_div_pow]
    omega
  have high : (offset >>> 16).setWidth 16 = offset.extractLsb' 16 16 := by
    apply BitVec.eq_of_toNat_eq
    simp only [BitVec.toNat_setWidth, BitVec.toNat_ushiftRight,
      BitVec.extractLsb'_toNat]
  rw [IdtGateDescriptor.offset, low, high]
  exact append_halves 16 offset

end Layout

/-! ## Writes keep the other gates and wrappers -/

section Writes

variable {st : IdtState} {n g w : Nat} {segment : BitVec 16}
  {typeAttr : BitVec 8} {offset : BitVec 32}

theorem gateAt_setIdtGate_self :
    gateAt (setIdtGate (gateAddress IDT_BASE n) offset segment typeAttr st) n =
      ⟨((offset <<< 16) >>> 16).setWidth 16, segment, 0, typeAttr,
        (offset >>> 16).setWidth 16⟩ :=
  loadGate_setIdtGate _ _ _ _ _

theorem gateAt_setIdtGate_other (other : g ≠ n) :
    gateAt (setIdtGate (gateAddress IDT_BASE n) offset segment typeAttr st) g =
      gateAt st g := by
  apply loadGate_of_changed (setIdtGate_changed _ _ _ _ _)
  simp only [gateAddress]
  omega

theorem wrapperAt_setIdtGate (inside : n ≤ 255) :
    wrapperAt (setIdtGate (gateAddress IDT_BASE n) offset segment typeAttr st) w =
      wrapperAt st w := by
  apply loadWrapper_of_changed (setIdtGate_changed _ _ _ _ _)
  simp only [gateAddress, wrapperAddress, IDT_BASE, ISR_WRAPPER_BASE]
  omega

theorem gateAt_setIsrWrapper (inside : g ≤ 255) (isrAddr : BitVec 32) :
    gateAt (setIsrWrapper (wrapperAddress n) isrAddr st) g = gateAt st g := by
  apply loadGate_of_changed (storeWrapper_changed _ _ _)
  simp only [gateAddress, wrapperAddress, IDT_BASE, ISR_WRAPPER_BASE]
  omega

theorem wrapperAt_setIsrWrapper_other (other : w ≠ n) (isrAddr : BitVec 32) :
    wrapperAt (setIsrWrapper (wrapperAddress n) isrAddr st) w =
      wrapperAt st w := by
  apply loadWrapper_of_changed (storeWrapper_changed _ _ _)
  simp only [wrapperAddress]
  omega

theorem wrapperAt_setIsrWrapper_self (isrAddr : BitVec 32) :
    wrapperAt (setIsrWrapper (wrapperAddress n) isrAddr st) n =
      { st.genericWrapper with isrAddr := isrAddr } :=
  loadWrapper_storeWrapper _ _ _

end Writes

/-! ## The null gates -/

/-- Null gates were added up to `number`: older gates and the other wrappers
stay, and the opcodes of the generic wrapper do. -/
structure NullGatesAdded (number passes : Nat) (st st' : IdtState) : Prop where
  count : st'.idtGateCount = st.idtGateCount + passes
  generic : { st'.genericWrapper with isrAddr := 0 } =
    { st.genericWrapper with isrAddr := 0 }
  idtrInfo : st'.idtrInfo = st.idtrInfo
  older : ∀ g < st.idtGateCount, gateAt st' g = gateAt st g
  added : ∀ g, st.idtGateCount ≤ g → g < st.idtGateCount + passes →
    (gateAt st' g).typeAttr = 0
  wrappers : ∀ w, w ≠ number → wrapperAt st' w = wrapperAt st w

theorem addNullGate_added (number : Nat) {st : IdtState}
    (inside : st.idtGateCount ≤ 255) :
    NullGatesAdded number 1 st (addNullGate number st) := by
  refine ⟨rfl, rfl, rfl, ?_, ?_, ?_⟩
  · intro g below
    exact (gateAt_setIsrWrapper (by omega) 0).trans
      (gateAt_setIdtGate_other (by omega))
  · intro g lower upper
    obtain rfl : g = st.idtGateCount := by omega
    have written : gateAt (addNullGate number st) st.idtGateCount = _ :=
      (gateAt_setIsrWrapper inside 0).trans gateAt_setIdtGate_self
    rw [written]
  · intro w other
    exact (wrapperAt_setIsrWrapper_other other 0).trans
      (wrapperAt_setIdtGate inside)

theorem addNullGates_added (number passes : Nat) {st : IdtState}
    (inside : st.idtGateCount + passes ≤ 256) :
    NullGatesAdded number passes st (addNullGates number passes st) := by
  induction passes generalizing st with
  | zero =>
      refine ⟨rfl, rfl, rfl, fun _ _ => rfl, ?_, fun _ _ => rfl⟩
      intro g lower upper
      omega
  | succ passes inductionHypothesis =>
      have first : NullGatesAdded number 1 st _ :=
        addNullGate_added number (by omega)
      have rest := @inductionHypothesis (addNullGate number st) (by
        rw [first.count]
        omega)
      have counted := first.count
      refine ⟨?_, rest.generic.trans first.generic,
        rest.idtrInfo.trans first.idtrInfo, ?_, ?_, ?_⟩
      · rw [addNullGates, rest.count, first.count]
        omega
      · intro g below
        rw [addNullGates, rest.older g (by omega), first.older g below]
      · intro g lower upper
        by_cases now : g < st.idtGateCount + 1
        · rw [addNullGates, rest.older g (by omega)]
          exact first.added g lower now
        · exact rest.added g (by omega) (by omega)
      · intro w other
        rw [addNullGates, rest.wrappers w other, first.wrappers w other]

/-- The table reaches beyond `number`, and only what lies above its old end and
below `number` is new. -/
structure TableExtended (number : Nat) (st st' : IdtState) : Prop where
  count : st'.idtGateCount = max st.idtGateCount (number + 1)
  generic : { st'.genericWrapper with isrAddr := 0 } =
    { st.genericWrapper with isrAddr := 0 }
  idtrInfo : st'.idtrInfo = st.idtrInfo
  older : ∀ g < st.idtGateCount, gateAt st' g = gateAt st g
  added : ∀ g, st.idtGateCount ≤ g → g < number → (gateAt st' g).typeAttr = 0
  wrappers : ∀ w, w ≠ number → wrapperAt st' w = wrapperAt st w

theorem extendTable_extended {number : Nat} (inside : number ≤ 255)
    (st : IdtState) : TableExtended number st (extendTable number st) := by
  by_cases beyond : st.idtGateCount ≤ number
  · have added : NullGatesAdded number (number - st.idtGateCount) st _ :=
      addNullGates_added number (number - st.idtGateCount) (by omega)
    have counted := added.count
    rw [extendTable, if_pos beyond]
    refine ⟨?_, added.generic, added.idtrInfo, added.older, ?_, added.wrappers⟩
    · show (addNullGates number (number - st.idtGateCount) st).idtGateCount + 1 = _
      omega
    · intro g lower upper
      exact added.added g lower (by omega)
  · rw [extendTable, if_neg beyond]
    refine ⟨by omega, rfl, rfl, fun _ _ => rfl, ?_, fun _ _ => rfl⟩
    intro g lower upper
    omega

/-! ## Histories of installations -/

/-- What memory and the static variables record of a history. -/
structure Records (opcodes : Opcodes) (history : List Install)
    (st : IdtState) : Prop where
  count : st.idtGateCount = tableSize history
  generic : { st.genericWrapper with isrAddr := 0 } = opcodes.wrapper
  installed : ∀ n install, lastInstall history n = some install →
    Installed opcodes st n install
  gaps : ∀ n < tableSize history, lastInstall history n = none →
    (gateAt st n).typeAttr = 0
  length : history ≠ [] →
    st.idtrInfo.length = BitVec.ofNat 16 (8 * tableSize history - 1)
  address : st.idtrInfo.address = BitVec.ofNat 32 IDT_BASE

theorem boot_records (opcodes : Opcodes) (mem : Memory) :
    Records opcodes [] (IdtState.boot opcodes mem) where
  count := rfl
  generic := rfl
  installed n install last := by cases last
  gaps n below := by cases below
  length nonempty := absurd rfl nonempty
  address := rfl

/-- An installation is there until a gate or wrapper of its number changes. -/
theorem Installed.of_same {opcodes : Opcodes} {st st' : IdtState} {n : Nat}
    {install : Install} (installed : Installed opcodes st n install)
    (gate : gateAt st' n = gateAt st n)
    (wrapper : wrapperAt st' n = wrapperAt st n) :
    Installed opcodes st' n install where
  segmentSelector := by rw [gate, installed.segmentSelector]
  zero := by rw [gate, installed.zero]
  typeAttr := by rw [gate, installed.typeAttr]
  offset := by rw [gate, installed.offset]
  wrapper := by rw [wrapper, installed.wrapper]

section Run

variable {install : Install} (st : IdtState)

theorem gateAt_run_self (inside : install.number ≤ 255) :
    gateAt (install.run st) install.number =
      ⟨((BitVec.ofNat 32 (wrapperAddress install.number) <<< 16) >>> 16).setWidth 16,
        0x08, 0, install.typeAttr,
        (BitVec.ofNat 32 (wrapperAddress install.number) >>> 16).setWidth 16⟩ :=
  (gateAt_setIsrWrapper inside install.isr).trans gateAt_setIdtGate_self

theorem gateAt_run_other {g : Nat} (bound : g ≤ 255) (other : g ≠ install.number) :
    gateAt (install.run st) g = gateAt (extendTable install.number st) g :=
  (gateAt_setIsrWrapper bound install.isr).trans (gateAt_setIdtGate_other other)

theorem wrapperAt_run_self :
    wrapperAt (install.run st) install.number =
      { (extendTable install.number st).genericWrapper with
        isrAddr := install.isr } :=
  wrapperAt_setIsrWrapper_self install.isr

theorem wrapperAt_run_other {w : Nat} (inside : install.number ≤ 255)
    (other : w ≠ install.number) :
    wrapperAt (install.run st) w =
      wrapperAt (extendTable install.number st) w :=
  (wrapperAt_setIsrWrapper_other other install.isr).trans
    (wrapperAt_setIdtGate inside)

/-- The installation itself is in place afterwards. -/
theorem run_installed {opcodes : Opcodes} (inside : install.number ≤ 255)
    (generic : { st.genericWrapper with isrAddr := 0 } = opcodes.wrapper) :
    Installed opcodes (install.run st) install.number install := by
  have gate := gateAt_run_self st inside
  have opcodesKept := (extendTable_extended inside st).generic.trans generic
  refine ⟨by rw [gate], by rw [gate], by rw [gate], ?_, ?_⟩
  · rw [gate, offset_of_halves, BitVec.toNat_ofNat]
    apply Nat.mod_eq_of_lt
    simp only [wrapperAddress, ISR_WRAPPER_BASE]
    omega
  · rw [wrapperAt_run_self st, ← opcodesKept]

end Run

/-- One installation extends the record of the history. -/
theorem install_records {opcodes : Opcodes} {history : List Install}
    {st : IdtState} {install : Install} (inside : install.number ≤ 255)
    (small : tableSize history ≤ 256) (records : Records opcodes history st) :
    Records opcodes (history ++ [install]) (install.run st) := by
  have extended := extendTable_extended inside st
  have size := tableSize_concat history install
  have counted := records.count
  have total : (install.run st).idtGateCount = tableSize (history ++ [install]) := by
    rw [size, ← counted]
    exact extended.count
  refine ⟨total, extended.generic.trans records.generic, ?_, ?_, ?_, ?_⟩
  · intro n last lastIs
    rw [lastInstall_concat] at lastIs
    by_cases same : install.number = n
    · rw [if_pos same] at lastIs
      obtain rfl := Option.some.inj lastIs
      subst same
      exact run_installed st inside records.generic
    · rw [if_neg same] at lastIs
      have below := lastInstall_lt_tableSize lastIs
      have other : n ≠ install.number := fun equal => same equal.symm
      apply (records.installed n last lastIs).of_same
      · rw [gateAt_run_other st (by omega) other]
        exact extended.older n (by omega)
      · rw [wrapperAt_run_other st inside other]
        exact extended.wrappers n other
  · intro n below lastIs
    rw [lastInstall_concat] at lastIs
    by_cases same : install.number = n
    · rw [if_pos same] at lastIs
      cases lastIs
    · rw [if_neg same] at lastIs
      rw [gateAt_run_other st (by omega) (fun equal => same equal.symm)]
      by_cases old : n < st.idtGateCount
      · rw [extended.older n old]
        exact records.gaps n (by omega) lastIs
      · exact extended.added n (by omega) (by omega)
  · intro _
    rw [← total]
    rfl
  · exact (congrArg IdtrStruct.address extended.idtrInfo).trans records.address

theorem tableSize_le {history : List Install}
    (numbers : ∀ install ∈ history, install.number ≤ 255) :
    tableSize history ≤ 256 := by
  induction history using List.reverseRecOn with
  | nil => exact Nat.zero_le _
  | append_singleton history last inductionHypothesis =>
      have before := inductionHypothesis fun install member =>
        numbers install (List.mem_append_left _ member)
      have now := numbers last (by simp)
      rw [tableSize_concat]
      omega

theorem installAll_records (opcodes : Opcodes) (mem : Memory)
    {history : List Install}
    (numbers : ∀ install ∈ history, install.number ≤ 255) :
    Records opcodes history (installAll opcodes mem history) := by
  induction history using List.reverseRecOn with
  | nil => exact boot_records opcodes mem
  | append_singleton history last inductionHypothesis =>
      have earlier : ∀ install ∈ history, install.number ≤ 255 :=
        fun install member => numbers install (List.mem_append_left _ member)
      have records := inductionHypothesis earlier
      rw [installAll, List.foldl_append]
      exact install_records (numbers last (by simp)) (tableSize_le earlier) records

/-- The table after any history of installations.  Every number installed has
the gate and the wrapper of its last installation, whatever came later; the
gaps below the largest number are not present; the IDT register holds the
limit of the table; and writing any gate of the table leaves every wrapper
alone. -/
theorem install_history (opcodes : Opcodes) (mem : Memory)
    (history : List Install)
    (numbers : ∀ install ∈ history, install.number ≤ 255) :
    (∀ n install, lastInstall history n = some install →
        Installed opcodes (installAll opcodes mem history) n install) ∧
      (∀ top ∈ history, (∀ install ∈ history, install.number ≤ top.number) →
        (installAll opcodes mem history).idtrInfo.length.toNat =
            8 * (top.number + 1) - 1 ∧
          ∀ n < top.number, lastInstall history n = none →
            (gateAt (installAll opcodes mem history) n).typeAttr = 0) ∧
      ∀ n < (installAll opcodes mem history).idtGateCount,
        ∀ offset segment typeAttr st w,
          wrapperAt
              (setIdtGate (gateAddress IDT_BASE n) offset segment typeAttr st) w =
            wrapperAt st w := by
  have records := installAll_records opcodes mem numbers
  have small := tableSize_le numbers
  refine ⟨records.installed, ?_, ?_⟩
  · intro top member largest
    have size := tableSize_of_top member largest
    have bound := numbers top member
    refine ⟨?_, fun n below => records.gaps n (by omega)⟩
    rw [records.length (List.ne_nil_of_mem member), size, BitVec.toNat_ofNat]
    omega
  · intro n below offset segment typeAttr st w
    have counted := records.count
    exact wrapperAt_setIdtGate (by omega)

/-- The opcodes of the instructions the wrapper is made of. -/
def sampleOpcodes : Opcodes := ⟨0x60, 0xFC, 0x9A, 0x61, 0xCF⟩

theorem install_history_keyboard :
    Installed sampleOpcodes
      (installAll sampleOpcodes (fun _ => 0xFF)
        [⟨33, 0x100000, 0x8E⟩, ⟨3, 0x200000, 0x8E⟩, ⟨33, 0x300000, 0xEE⟩]) 33
      ⟨33, 0x300000, 0xEE⟩ :=
  (install_history sampleOpcodes (fun _ => 0xFF)
    [⟨33, 0x100000, 0x8E⟩, ⟨3, 0x200000, 0x8E⟩, ⟨33, 0x300000, 0xEE⟩]
    (by decide)).1 33 _ (by decide)

end Os88.Idt
