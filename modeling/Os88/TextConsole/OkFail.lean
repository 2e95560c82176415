/-
Module: Os88.TextConsole.OkFail
Purpose: `kprint_ok_fail`, whose padding loop compares an 8-bit counter with a
  32-bit difference: when it comes back.
Trusted boundary: none
Main exports: kprintOkFail, okFailBound, okFailLoop_ends, okFailLoop_endless,
  kprintOkFail_terminates_iff, padding_le_iff
-/
import Os88.TextConsole.Pieces

namespace Os88.TextConsole

variable {δ : Type}

def kgetColor (c : Console δ) : Color :=
  (c.ttys (ttyCurrentProcess c)).color

def TTY_SET_DEFAULT_COLOR : List (BitVec 8) := [0x01, 0x07]
def TTY_SET_OK_COLOR : List (BitVec 8) := [0x01, 0x02]
def TTY_SET_FAIL_COLOR : List (BitVec 8) := [0x01, 0x04]

/-- `ok_length` -/
def okLength (ok : Bool) : BitVec 8 := if ok then 4 else 6

/-- The tag at the end of the line, `[OK]` or `[FAIL]`. -/
def okFailTag (ok : Bool) : List (BitVec 8) :=
  if ok then
    [0x5B] ++ TTY_SET_OK_COLOR ++ [0x4F, 0x4B] ++ TTY_SET_DEFAULT_COLOR ++ [0x5D, 0]
  else
    [0x5B] ++ TTY_SET_FAIL_COLOR ++ [0x46, 0x41, 0x49, 0x4C] ++
      TTY_SET_DEFAULT_COLOR ++ [0x5D, 0]

/-- `tty_width - len - ok_length`, in `uint32_t` -/
def okFailBound (g : Geometry) (len : BitVec 32) (ok : Bool) : BitVec 32 :=
  BitVec.ofNat 32 g.width - len - (okLength ok).setWidth 32

theorem okFailBound_le_iff (g : Geometry) (len : Nat) (ok : Bool) :
    (okFailBound g (BitVec.ofNat 32 len) ok).toNat ≤ 255 ↔
      ((g.width : Int) - len - (okLength ok).toNat) % 4294967296 ≤ 255 := by
  have tag : (okLength ok).toNat ≤ 6 := by cases ok <;> decide
  simp only [okFailBound, BitVec.toNat_sub, BitVec.toNat_ofNat, BitVec.toNat_setWidth]
  omega

/-- The `for` loop of `kprint_ok_fail`, for at most `fuel` evaluations of its
condition.  The counter is a `uint8_t`. -/
def okFailLoop (drv : TtyDriver δ) (bound : BitVec 32) :
    Nat → BitVec 8 → Console δ → Option (Console δ)
  | 0, _, _ => none
  | fuel + 1, i, c =>
      if i.setWidth 32 < bound then do
        let (_, c) ← kprint drv [0x20, 0] c
        okFailLoop drv bound fuel (i + 1) c
      else some c

/-- `kprint_ok_fail`, with the value it returns -/
def kprintOkFail (drv : TtyDriver δ) (fuel : Nat) (str : List (BitVec 8)) (ok : Bool)
    (c : Console δ) : Option (Nat × Console δ) := do
  let (len, c) ← kprint drv str c
  let c ← okFailLoop drv (okFailBound drv.geometry (BitVec.ofNat 32 len) ok) fuel 0 c
  let oldColor := kgetColor c
  let (_, c) ← kprint drv (okFailTag ok) c
  return (drv.geometry.width, ksetColor oldColor c)

/-- Some number of passes is enough for `kprint_ok_fail` to come back. -/
def OkFailTerminates (drv : TtyDriver δ) (str : List (BitVec 8)) (ok : Bool)
    (c : Console δ) : Prop :=
  ∃ fuel final, kprintOkFail drv fuel str ok c = some final

/-! ## The loop -/

section Loop

variable (drv : TtyDriver δ)

/-- The current process has a tty that can be printed on. -/
def Printable (c : Console δ) : Prop :=
  (c.ttys (ttyCurrentProcess c)).WellFormed drv.geometry

variable {drv}

theorem kprint_printable {c : Console δ} (str : List (BitVec 8))
    (printable : Printable drv c) :
    ∃ c', kprint drv str c = some (textLength str, c') ∧ Printable drv c' := by
  obtain ⟨c', ran, changed⟩ := ttyPrint_effect drv str printable
  refine ⟨c', ran, ?_⟩
  rw [Printable, ttyCurrentProcess_becomes changed, changed.self]
  exact printable.print str

/-- A counter that can reach the bound does. -/
theorem okFailLoop_ends {bound : BitVec 32} (reachable : bound.toNat ≤ 255)
    {i : BitVec 8} (below : i.toNat ≤ bound.toNat) {c : Console δ}
    (printable : Printable drv c) :
    ∃ fuel c', okFailLoop drv bound fuel i c = some c' ∧ Printable drv c' := by
  induction distance : bound.toNat - i.toNat generalizing i c with
  | zero =>
      have done : ¬ i.setWidth 32 < bound := by
        rw [BitVec.lt_def, BitVec.toNat_setWidth]
        omega
      exact ⟨1, c, by rw [okFailLoop, if_neg done], printable⟩
  | succ distance inductionHypothesis =>
      have more : i.setWidth 32 < bound := by
        rw [BitVec.lt_def, BitVec.toNat_setWidth]
        omega
      have next : (i + 1).toNat = i.toNat + 1 := by
        rw [BitVec.toNat_add]
        exact Nat.mod_eq_of_lt (by simp; omega)
      obtain ⟨middle, padded, kept⟩ := kprint_printable [0x20, 0] printable
      obtain ⟨fuel, final, ran, done⟩ :=
        inductionHypothesis (i := i + 1) (by omega) kept (by omega)
      refine ⟨fuel + 1, final, ?_, done⟩
      rw [okFailLoop, if_pos more, padded]
      exact ran

/-- No 8-bit counter reaches a bound of 256 or more. -/
theorem okFailLoop_endless {bound : BitVec 32} (tooFar : 255 < bound.toNat)
    (fuel : Nat) (i : BitVec 8) (c : Console δ) :
    okFailLoop drv bound fuel i c = none := by
  induction fuel generalizing i c with
  | zero => rfl
  | succ fuel inductionHypothesis =>
      have more : i.setWidth 32 < bound := by
        rw [BitVec.lt_def, BitVec.toNat_setWidth]
        omega
      rw [okFailLoop, if_pos more]
      cases padded : kprint drv [0x20, 0] c with
      | none => rfl
      | some result => exact inductionHypothesis (i + 1) result.2

end Loop

/-! ## The function -/

section Function

variable (drv : TtyDriver δ) {str : List (BitVec 8)} {ok : Bool} {c : Console δ}

theorem kprintOkFail_terminates (printable : Printable drv c)
    (reachable :
      (okFailBound drv.geometry (BitVec.ofNat 32 (textLength str)) ok).toNat ≤ 255) :
    OkFailTerminates drv str ok c := by
  obtain ⟨printed, ran, kept⟩ := kprint_printable str printable
  obtain ⟨fuel, padded, looped, kept'⟩ :=
    okFailLoop_ends reachable (i := 0) (Nat.zero_le _) kept
  obtain ⟨tagged, ranTag, -⟩ := kprint_printable (okFailTag ok) kept'
  have finished :
      kprintOkFail drv fuel str ok c =
        some (drv.geometry.width, ksetColor (kgetColor padded) tagged) := by
    simp only [kprintOkFail, ran, Option.bind_eq_bind, Option.bind_some, looped, ranTag]
    rfl
  exact ⟨_, _, finished⟩

theorem kprintOkFail_runs_on (printable : Printable drv c)
    (tooFar :
      255 < (okFailBound drv.geometry (BitVec.ofNat 32 (textLength str)) ok).toNat) :
    ¬ OkFailTerminates drv str ok c := by
  rintro ⟨fuel, final, finished⟩
  obtain ⟨printed, ran, -⟩ := kprint_printable str printable
  simp only [kprintOkFail, ran, Option.bind_eq_bind, Option.bind_some,
    okFailLoop_endless tooFar, Option.bind_none] at finished
  cases finished

/-- `kprint_ok_fail` comes back exactly when what the text and the tag leave of
a row, modulo 2^32, is at most 255. -/
theorem kprintOkFail_terminates_iff (printable : Printable drv c) :
    OkFailTerminates drv str ok c ↔
      ((drv.geometry.width : Int) - textLength str - (okLength ok).toNat) % 4294967296 ≤
        255 := by
  rw [← okFailBound_le_iff]
  constructor
  · intro terminates
    by_contra tooFar
    exact kprintOkFail_runs_on drv printable (Nat.not_le.mp tooFar) terminates
  · exact kprintOkFail_terminates drv printable

end Function

/-- For strings of less than 2 GiB: the text and the tag have to fit in a row, with
at most 255 spaces between them. -/
theorem padding_le_iff (g : Geometry) {len : Nat} (small : len < 2147483648)
    (ok : Bool) :
    ((g.width : Int) - len - (okLength ok).toNat) % 4294967296 ≤ 255 ↔
      len + (okLength ok).toNat ≤ g.width ∧
        g.width ≤ len + (okLength ok).toNat + 255 := by
  have wide : g.width < 2147483648 :=
    Nat.lt_of_le_of_lt g.width_le_cells g.cells_lt
  have tag : (okLength ok).toNat ≤ 6 := by cases ok <;> decide
  omega

theorem kprintOkFail_terminates_iff_text_mode :
    OkFailTerminates (plainDriver ⟨80, 25, by decide, by decide, by decide⟩)
        [0x48, 0x69, 0] true
        (initTty (plainDriver ⟨80, 25, by decide, by decide, by decide⟩) none ()) ↔
      ((80 : Int) - textLength [0x48, 0x69, 0] - (okLength true).toNat) % 4294967296 ≤
        255 :=
  kprintOkFail_terminates_iff (plainDriver ⟨80, 25, by decide, by decide, by decide⟩)
    (initTty_wellFormed (plainDriver ⟨80, 25, by decide, by decide, by decide⟩)
      (plainDriver_givesMemory _) none () 0)

/-- 77 characters and `[OK]` do not fit in 80 columns: the difference is
2^32 - 1. -/
theorem long_text_never_tagged :
    ¬ OkFailTerminates (plainDriver ⟨80, 25, by decide, by decide, by decide⟩)
        (List.replicate 77 0x41 ++ [0]) true
        (initTty (plainDriver ⟨80, 25, by decide, by decide, by decide⟩) none ()) :=
  kprintOkFail_runs_on (plainDriver ⟨80, 25, by decide, by decide, by decide⟩)
    (initTty_wellFormed (plainDriver ⟨80, 25, by decide, by decide, by decide⟩)
      (plainDriver_givesMemory _) none () 0) (by decide)

end Os88.TextConsole
