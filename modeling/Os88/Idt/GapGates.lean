/-
Module: Os88.Idt.GapGates
Purpose: The gates that `add_null_gates` puts below a number out of order.
Trusted boundary: none
Main exports: gapGate, extendTable_gap, GapsLead, installAll_gapsLead, NullGate,
  GapsAreNull, gapsAreNull_iff_noGap, gaps_stay_null_iff
-/
import Os88.Idt.InstallHistory

namespace Os88.Idt

open ByteMemory

/-- What `add_null_gates(number, ..)` stores in a gate: nothing but the address of
wrapper `number`. -/
def gapGate (number : Nat) : IdtGateDescriptor where
  offsetLow := ((BitVec.ofNat 32 (wrapperAddress number) <<< 16) >>> 16).setWidth 16
  segmentSelector := 0
  zero := 0
  typeAttr := 0
  offsetHigh := (BitVec.ofNat 32 (wrapperAddress number) >>> 16).setWidth 16

theorem gapGate_offset {number : Nat} (inside : number ≤ 255) :
    (gapGate number).offset.toNat = wrapperAddress number := by
  rw [gapGate, offset_of_halves, BitVec.toNat_ofNat]
  apply Nat.mod_eq_of_lt
  simp only [wrapperAddress, ISR_WRAPPER_BASE]
  omega

/-! ## Filling a gap -/

section Filling

variable {number : Nat} {st : IdtState}

theorem addNullGates_gap (passes : Nat) (inside : st.idtGateCount + passes ≤ 256) {g : Nat}
    (lower : st.idtGateCount ≤ g) (upper : g < st.idtGateCount + passes) :
    gateAt (addNullGates number passes st) g = gapGate number := by
  induction passes generalizing st with
  | zero => omega
  | succ passes inductionHypothesis =>
      have first : NullGatesAdded number 1 st _ := addNullGate_added number (by omega)
      have counted := first.count
      rw [addNullGates]
      by_cases now : g = st.idtGateCount
      · subst now
        have rest := @addNullGates_added number passes (addNullGate number st) (by omega)
        rw [rest.older _ (by omega)]
        exact (gateAt_setIsrWrapper (by omega) 0).trans gateAt_setIdtGate_self
      · exact inductionHypothesis (by omega) (by omega) (by omega)

/-- All gates of the gap lead to the wrapper of the number that made the gap. -/
theorem extendTable_gap (inside : number ≤ 255) {g : Nat} (lower : st.idtGateCount ≤ g)
    (upper : g < number) : gateAt (extendTable number st) g = gapGate number := by
  rw [extendTable, if_pos (by omega)]
  exact addNullGates_gap (number - st.idtGateCount) (by omega) lower (by omega)

end Filling

/-! ## Gaps after a history -/

/-- A number below the size of the table that was not installed. -/
def IsGap (history : List Install) (n : Nat) : Prop :=
  n < tableSize history ∧ lastInstall history n = none

/-- Every gap leads to the wrapper of a larger number. -/
def GapsLead (history : List Install) (st : IdtState) : Prop :=
  ∀ n, IsGap history n → ∃ number, n < number ∧ number ≤ 255 ∧ gateAt st n = gapGate number

/-- A gap of a longer history was one before, or its last call made it. -/
theorem isGap_concat {history : List Install} {install : Install} {n : Nat} :
    IsGap (history ++ [install]) n ↔
      n ≠ install.number ∧ (IsGap history n ∨
        tableSize history ≤ n ∧ n < install.number) := by
  have unused : tableSize history ≤ n → lastInstall history n = none := by
    intro above
    cases last : lastInstall history n with
    | none => rfl
    | some install =>
        have below := lastInstall_lt_tableSize last
        omega
  rw [IsGap, IsGap, tableSize_concat, lastInstall_concat]
  by_cases same : install.number = n
  · rw [if_pos same]
    simp [same]
  · rw [if_neg same]
    constructor
    · rintro ⟨below, noLast⟩
      refine ⟨fun equal => same equal.symm, ?_⟩
      by_cases old : n < tableSize history
      · exact Or.inl ⟨old, noLast⟩
      · exact Or.inr ⟨by omega, by omega⟩
    · rintro ⟨-, ⟨old, noLast⟩ | ⟨above, below⟩⟩
      · exact ⟨by omega, noLast⟩
      · exact ⟨by omega, unused above⟩

theorem install_gapsLead {opcodes : Opcodes} {history : List Install} {st : IdtState}
    {install : Install} (inside : install.number ≤ 255)
    (records : Records opcodes history st) (lead : GapsLead history st) :
    GapsLead (history ++ [install]) (install.run st) := by
  have counted := records.count
  intro n gap
  rcases isGap_concat.mp gap with ⟨other, old | ⟨above, below⟩⟩
  · rcases lead n old with ⟨number, larger, bound, gate⟩
    refine ⟨number, larger, bound, ?_⟩
    rw [gateAt_run_other st (by omega) other,
      (extendTable_extended inside st).older n (by have := old.1; omega), gate]
  · refine ⟨install.number, below, inside, ?_⟩
    rw [gateAt_run_other st (by omega) other]
    exact extendTable_gap inside (by omega) below

theorem installAll_concat (opcodes : Opcodes) (mem : Memory) (history : List Install)
    (install : Install) :
    installAll opcodes mem (history ++ [install]) =
      install.run (installAll opcodes mem history) := by
  rw [installAll, List.foldl_append]
  rfl

theorem installAll_gapsLead (opcodes : Opcodes) (mem : Memory) {history : List Install}
    (numbers : ∀ install ∈ history, install.number ≤ 255) :
    GapsLead history (installAll opcodes mem history) := by
  induction history using List.reverseRecOn with
  | nil =>
      rintro n ⟨below, -⟩
      cases below
  | append_singleton history last inductionHypothesis =>
      have earlier : ∀ install ∈ history, install.number ≤ 255 :=
        fun install member => numbers install (List.mem_append_left _ member)
      rw [installAll_concat]
      exact install_gapsLead (numbers last (by simp))
        (installAll_records opcodes mem earlier) (inductionHypothesis earlier)

/-! ## Null gates -/

/-- Gate `n` is empty and leads to its own wrapper, which calls address 0. -/
structure NullGate (opcodes : Opcodes) (st : IdtState) (n : Nat) : Prop where
  segmentSelector : (gateAt st n).segmentSelector = 0
  typeAttr : (gateAt st n).typeAttr = 0
  offset : (gateAt st n).offset.toNat = wrapperAddress n
  wrapper : wrapperAt st n = { opcodes.wrapper with isrAddr := 0 }

/-- Every gate of the table that was never installed is a null gate. -/
def GapsAreNull (opcodes : Opcodes) (history : List Install) (st : IdtState) : Prop :=
  ∀ n < st.idtGateCount, lastInstall history n = none → NullGate opcodes st n

/-- No gap is a null gate, so there must be none. -/
theorem gapsAreNull_iff_noGap (opcodes : Opcodes) (mem : Memory) {history : List Install}
    (numbers : ∀ install ∈ history, install.number ≤ 255) :
    GapsAreNull opcodes history (installAll opcodes mem history) ↔
      ∀ n, ¬ IsGap history n := by
  have counted := (installAll_records opcodes mem numbers).count
  constructor
  · intro null n gap
    rcases installAll_gapsLead opcodes mem numbers n gap with
      ⟨number, larger, bound, gate⟩
    have own := (null n (by rw [counted]; exact gap.1) gap.2).offset
    rw [gate, gapGate_offset bound, wrapperAddress, wrapperAddress] at own
    omega
  · intro noGap n below unused
    rw [counted] at below
    exact absurd ⟨below, unused⟩ (noGap n)

/-- The gaps are null gates after every call exactly if every call's number is at
most one more than all numbers before it, and then there are no gaps. -/
theorem gaps_stay_null_iff (opcodes : Opcodes) (mem : Memory) (history : List Install)
    (numbers : ∀ install ∈ history, install.number ≤ 255) :
    (∀ before, before <+: history →
        GapsAreNull opcodes before (installAll opcodes mem before)) ↔
      ∀ before install, before ++ [install] <+: history →
        install.number ≤ tableSize before := by
  have known : ∀ before, before <+: history →
      (GapsAreNull opcodes before (installAll opcodes mem before) ↔
        ∀ n, ¬ IsGap before n) := by
    intro before isPrefix
    apply gapsAreNull_iff_noGap
    intro install member
    exact numbers install (isPrefix.subset member)
  constructor
  · intro null before install isPrefix
    by_contra beyond
    have noGap := (known _ isPrefix).mp (null _ isPrefix)
    apply noGap (tableSize before)
    rw [isGap_concat]
    exact ⟨by omega, Or.inr ⟨Nat.le_refl _, by omega⟩⟩
  · intro inOrder before isPrefix
    rw [known before isPrefix]
    induction before using List.reverseRecOn with
    | nil =>
        rintro n ⟨below, -⟩
        cases below
    | append_singleton before last inductionHypothesis =>
        have shorter : before <+: history := (List.prefix_append before [last]).trans isPrefix
        intro n gap
        have bound := inOrder before last isPrefix
        rcases isGap_concat.mp gap with ⟨-, old | ⟨above, below⟩⟩
        · exact inductionHypothesis shorter n old
        · omega

/-- Three numbers in order, one of them twice. -/
theorem gaps_stay_null_in_order :
    (∀ before, before <+: [⟨0, 0x1000, 0x8E⟩, ⟨1, 0x2000, 0x8E⟩, ⟨0, 0x3000, 0x8E⟩] →
        GapsAreNull sampleOpcodes before
          (installAll sampleOpcodes (fun _ => 0xFF) before)) ↔
      ∀ before install,
        before ++ [install] <+: [⟨0, 0x1000, 0x8E⟩, ⟨1, 0x2000, 0x8E⟩, ⟨0, 0x3000, 0x8E⟩] →
          install.number ≤ tableSize before :=
  gaps_stay_null_iff sampleOpcodes (fun _ => 0xFF)
    [⟨0, 0x1000, 0x8E⟩, ⟨1, 0x2000, 0x8E⟩, ⟨0, 0x3000, 0x8E⟩] (by decide)

/-- Number 2 as the first one: gates 0 and 1 lead to wrapper 2, and their own
wrappers are not written. -/
theorem first_install_leaves_gaps :
    (gateAt (installAll sampleOpcodes (fun _ => 0xFF) [⟨2, 0x1000, 0x8E⟩]) 0).offset.toNat =
        wrapperAddress 2 ∧
      wrapperAt (installAll sampleOpcodes (fun _ => 0xFF) [⟨2, 0x1000, 0x8E⟩]) 0 ≠
        { sampleOpcodes.wrapper with isrAddr := 0 } ∧
      ¬ GapsAreNull sampleOpcodes [⟨2, 0x1000, 0x8E⟩]
        (installAll sampleOpcodes (fun _ => 0xFF) [⟨2, 0x1000, 0x8E⟩]) := by
  have gap : IsGap [⟨2, 0x1000, 0x8E⟩] 0 := ⟨by decide, by decide⟩
  refine ⟨by decide +kernel, by decide +kernel, ?_⟩
  rw [gapsAreNull_iff_noGap sampleOpcodes (fun _ => 0xFF) (by decide)]
  exact fun noGap => noGap 0 gap

end Os88.Idt
