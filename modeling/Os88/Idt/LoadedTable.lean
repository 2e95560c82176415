/-
Module: Os88.Idt.LoadedTable
Purpose: The array that idt_set_gate fills, against the table whose address
  idt_install loads into the CPU.
Trusted boundary: none
Main exports: SetGate, setAll, lastSet, entryAt, entries_follow_settings,
  VectorServed, loaded_table_empty
-/
import Os88.Idt.InstallHistory

namespace Os88.Idt

open ByteMemory

/-- One call of `idt_set_gate`. -/
structure SetGate where
  num : BitVec 8
  base : BitVec 32
  sel : BitVec 16
  flags : BitVec 8
deriving DecidableEq, Repr

def SetGate.run (idt : Nat) (set : SetGate) (st : IdtState) : IdtState :=
  idtSetGate idt set.num set.base set.sel set.flags st

/-- `idt_install` from boot, then a history of settings. -/
def setAll (idt : Nat) (opcodes : Opcodes) (mem : Memory)
    (history : List SetGate) : IdtState :=
  history.foldl (fun st set => set.run idt st)
    (idtInstall idt (IdtState.boot opcodes mem))

/-- The last setting of a vector. -/
def lastSet (history : List SetGate) (num : BitVec 8) : Option SetGate :=
  (history.filter fun set => set.num = num).getLast?

/-- A gate holds what `idt_set_gate` was given. -/
structure HoldsSetting (gate : IdtGateDescriptor) (set : SetGate) : Prop where
  offset : gate.offset = set.base
  sel : gate.segmentSelector = set.sel
  always0 : gate.zero = 0
  flags : gate.typeAttr = set.flags

/-- The gate is that of the last setting, or all zero if there is none. -/
def GateFollows (gate : IdtGateDescriptor) : Option SetGate → Prop
  | some set => HoldsSetting gate set
  | none => gate = ⟨0, 0, 0, 0, 0⟩

/-- The CPU finds, through its own register, the gate that follows the
settings. -/
def VectorServed (st : IdtState) (history : List SetGate) (num : BitVec 8) :
    Prop :=
  ∃ gate, lookup st num = some gate ∧ GateFollows gate (lastSet history num)

/-! ## The array follows the settings -/

/-- Entry `num` of the array `idt`. -/
def entryAt (idt : Nat) (st : IdtState) (num : BitVec 8) : IdtGateDescriptor :=
  loadGate st.mem (gateAddress idt num.toNat)

theorem lastSet_concat (history : List SetGate) (set : SetGate)
    (num : BitVec 8) :
    lastSet (history ++ [set]) num =
      if set.num = num then some set else lastSet history num := by
  by_cases same : set.num = num
  · simp [lastSet, same]
  · simp [lastSet, same]

theorem idtSetGate_changed (idt : Nat) (set : SetGate) (st : IdtState) :
    ChangedWithin (gateAddress idt set.num.toNat)
      (gateAddress idt set.num.toNat + 8) st.mem (set.run idt st).mem := by
  unfold SetGate.run idtSetGate
  refine ((((ChangedWithin.store16 _ ?_ ?_).trans
    (ChangedWithin.store16 _ ?_ ?_)).trans (ChangedWithin.store8 _ ?_ ?_)).trans
      (ChangedWithin.store16 _ ?_ ?_)).trans (ChangedWithin.store8 _ ?_ ?_) <;>
    omega

theorem loadGate_idtSetGate (idt : Nat) (set : SetGate) (st : IdtState) :
    entryAt idt (set.run idt st) set.num =
      ⟨(set.base &&& 0xFFFF).setWidth 16, set.sel, 0, set.flags,
        ((set.base >>> 16) &&& 0xFFFF).setWidth 16⟩ := by
  simp (disch := omega) only [entryAt, SetGate.run, idtSetGate, loadGate,
    load16_store16, load16_store8_apart, load16_store16_apart, store16_apart,
    store8_self, store8_of_ne]

/-- The halves of the base that an entry stores. -/
theorem base_halves (base : BitVec 32) :
    (base &&& 0xFFFF).setWidth 16 = base.extractLsb' 0 16 ∧
      ((base >>> 16) &&& 0xFFFF).setWidth 16 = base.extractLsb' 16 16 := by
  have mask : BitVec.toNat (0xFFFF : BitVec 32) = 2 ^ 16 - 1 := rfl
  constructor
  · apply BitVec.eq_of_toNat_eq
    simp only [BitVec.toNat_setWidth, BitVec.toNat_and, BitVec.extractLsb'_toNat,
      mask, Nat.and_two_pow_sub_one_eq_mod, Nat.mod_mod, Nat.shiftRight_zero]
  · apply BitVec.eq_of_toNat_eq
    simp only [BitVec.toNat_setWidth, BitVec.toNat_and, BitVec.toNat_ushiftRight,
      BitVec.extractLsb'_toNat, mask, Nat.and_two_pow_sub_one_eq_mod, Nat.mod_mod]

theorem idtSetGate_holds (idt : Nat) (set : SetGate) (st : IdtState) :
    HoldsSetting (entryAt idt (set.run idt st) set.num) set := by
  rcases base_halves set.base with ⟨low, high⟩
  rw [loadGate_idtSetGate, low, high]
  exact ⟨append_halves 16 set.base, rfl, rfl, rfl⟩

theorem idtSetGate_other (idt : Nat) (set : SetGate) (st : IdtState)
    {num : BitVec 8} (other : set.num ≠ num) :
    entryAt idt (set.run idt st) num = entryAt idt st num := by
  have apart : set.num.toNat ≠ num.toNat :=
    fun equal => other (BitVec.eq_of_toNat_eq equal)
  apply loadGate_of_changed (idtSetGate_changed idt set st)
  simp only [gateAddress]
  omega

theorem entryAt_idtInstall (idt : Nat) (st : IdtState) (num : BitVec 8) :
    entryAt idt (idtInstall idt st) num = ⟨0, 0, 0, 0, 0⟩ := by
  have bound := num.isLt
  simp (disch := omega) only [entryAt, idtInstall, idtLoad, loadGate, load16,
    gateAddress, fill_inside]
  rfl

/-- The array holds the last setting of every vector, and zero elsewhere. -/
theorem entries_follow_settings (idt : Nat) (opcodes : Opcodes) (mem : Memory)
    (history : List SetGate) (num : BitVec 8) :
    GateFollows (entryAt idt (setAll idt opcodes mem history) num)
      (lastSet history num) := by
  induction history using List.reverseRecOn with
  | nil => exact entryAt_idtInstall idt _ num
  | append_singleton history last inductionHypothesis =>
      rw [setAll, List.foldl_append, List.foldl_cons, List.foldl_nil,
        lastSet_concat]
      by_cases same : last.num = num
      · rw [if_pos same, ← same]
        exact idtSetGate_holds idt last _
      · rw [if_neg same, idtSetGate_other idt last _ same]
        exact inductionHypothesis

/-! ## The register does not describe the array -/

/-- Settings leave the IDT register as idt_install loaded it: `lidt` took its
operand from `idtr_info`, of length 0, and not from `idtp`. -/
theorem setAll_idtr (idt : Nat) (opcodes : Opcodes) (mem : Memory)
    (history : List SetGate) :
    (setAll idt opcodes mem history).idtr =
      some ⟨0, BitVec.ofNat 32 IDT_BASE⟩ := by
  induction history using List.reverseRecOn with
  | nil => rfl
  | append_singleton history last inductionHypothesis =>
      rw [setAll, List.foldl_append]
      exact inductionHypothesis

/-- The limit of the loaded table excludes every vector, so whatever was set,
the CPU finds no gate. -/
theorem loaded_table_empty (idt : Nat) (opcodes : Opcodes) (mem : Memory)
    (history : List SetGate) (num : BitVec 8) :
    ¬ VectorServed (setAll idt opcodes mem history) history num := by
  rintro ⟨gate, found, -⟩
  rw [lookup, setAll_idtr] at found
  simp at found

/-- A keyboard gate that is set but never found. -/
theorem keyboard_gate_not_served :
    ¬ VectorServed
        (setAll 0x100000 sampleOpcodes (fun _ => 0)
          [⟨33, 0x00101234, 0x08, 0x8E⟩])
        [⟨33, 0x00101234, 0x08, 0x8E⟩] 33 := by
  rintro ⟨gate, found, -⟩
  cases found

end Os88.Idt
