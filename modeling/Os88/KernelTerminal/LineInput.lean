/-
Module: Os88.KernelTerminal.LineInput
Purpose: The loop of `_test` in kernel/main.c that collects a line for the
  kernel terminal, and when it stays inside its buffer.
Trusted boundary: the console is outside the repository; what the display
  does to it is a parameter, and what a command leaves behind is part of the
  key that starts it.
Main exports: LineInput, terminalKey, LineHolds, input_inside_buffers_iff
-/
import Os88.KernelTerminal.LoginSession

namespace Os88.KernelTerminal

open Execution
open StringLib

/-! ## The loop -/

/-- What the loop uses of `disp` over the states `γ` of the console: the column
`disp->con.cx`, its decrement and `disp->putc`. -/
structure Display (γ : Type) where
  cx : γ → Int
  decrementCx : γ → γ
  putc : BitVec 8 → γ → γ

/-- One pass of the loop: the key, 0 for a pass without one, and, for the key
that ends a line, the console and the prompt size when the next prompt has been
printed. -/
structure Pass (γ : Type) where
  key : BitVec 8
  con : γ
  promptSize : BitVec 8

/-- The variables of the loop, with the console. -/
structure LineInput (γ : Type) where
  buffer : Vector (BitVec 8) 256
  loc : BitVec 16
  promptSize : BitVec 8
  con : γ

variable {γ : Type} (disp : Display γ)

/-- `disp->con.cx --; disp->putc(' '); disp->con.cx --;` -/
def Display.eraseLast (con : γ) : γ :=
  disp.decrementCx (disp.putc 0x20#8 (disp.decrementCx con))

/-- The state in which `_test` awaits the first key. -/
def LineInput.start (con : γ) : LineInput γ where
  buffer := Vector.replicate 256 0#8
  loc := 0
  promptSize := BitVec.ofNat 8 (bytes "(kernel) $ ").length
  con := con

def terminalKey (pass : Pass γ) (s : LineInput γ) : Option (LineInput γ) :=
  if pass.key = 0#8 then some s
  else if pass.key = 0x0D#8 then
    if disp.cx s.con ≤ s.promptSize.toNat then some s
    else do
      let buffer ← setByte s.buffer s.loc.toNat 0#8
      return { s with
        buffer := buffer, loc := s.loc - 1, con := disp.eraseLast s.con }
  else if pass.key = 0x0A#8 then do
    -- the command gets this buffer; behind it come the prompt and `memset`
    let _ ← setByte s.buffer s.loc.toNat 0#8
    return ⟨Vector.replicate 256 0#8, 0, pass.promptSize, pass.con⟩
  else do
    let buffer ← setByte s.buffer s.loc.toNat pass.key
    let loc := s.loc + 1
    let buffer ← setByte buffer loc.toNat 0#8
    return { s with buffer := buffer, loc := loc, con := disp.putc pass.key s.con }

/-- The counter `loc` does not go below 0. -/
def NoWrap (s s' : LineInput γ) : Prop :=
  ¬ (s.loc = 0 ∧ s'.loc = 0xFFFF#16)

/-! ## The length of the line -/

/-- The number of characters of the line, next to what decides whether one can
be erased. -/
structure LineLength (γ : Type) where
  length : Nat
  promptSize : BitVec 8
  con : γ

def LineLength.start (con : γ) : LineLength γ where
  length := 0
  promptSize := (LineInput.start con).promptSize
  con := con

/-- A carriage return erases a character when the console stands behind the
prompt. -/
def LineLength.Erases (a : LineLength γ) : Prop :=
  a.promptSize.toNat < disp.cx a.con

instance (a : LineLength γ) : Decidable (a.Erases disp) :=
  inferInstanceAs (Decidable (_ < _))

def LineLength.read (a : LineLength γ) (pass : Pass γ) : LineLength γ :=
  if pass.key = 0#8 then a
  else if pass.key = 0x0D#8 then
    if a.Erases disp then
      { a with length := a.length - 1, con := disp.eraseLast a.con }
    else a
  else if pass.key = 0x0A#8 then ⟨0, pass.promptSize, pass.con⟩
  else { a with length := a.length + 1, con := disp.putc pass.key a.con }

/-- The key finds a character to erase, or room for one more. -/
def LineHolds (pass : Pass γ) (a : LineLength γ) : Prop :=
  if pass.key = 0#8 ∨ pass.key = 0x0A#8 then True
  else if pass.key = 0x0D#8 then a.Erases disp → 1 ≤ a.length
  else a.length ≤ 254

/-- Every key of the sequence finds the line so. -/
def LineAlwaysHolds (passes : List (Pass γ)) (con : γ) : Prop :=
  ∀ before pass, before ++ [pass] <+: passes →
    LineHolds disp pass (before.foldl (LineLength.read disp) (LineLength.start con))

/-! ## One key -/

/-- The counter is the length of the line, which leaves room for its
terminator. -/
structure Counts (s : LineInput γ) (a : LineLength γ) : Prop where
  loc : s.loc.toNat = a.length
  bound : a.length ≤ 255
  promptSize : s.promptSize = a.promptSize
  con : s.con = a.con

section Keys

variable {s : LineInput γ} {a : LineLength γ} {pass : Pass γ}

theorem counts_start (con : γ) :
    Counts (LineInput.start con) (LineLength.start con) :=
  ⟨rfl, Nat.zero_le _, rfl, rfl⟩

/-- The counter after a character, inside the block. -/
theorem toNat_next {loc : BitVec 16} (inside : loc.toNat ≤ 255) :
    (loc + 1).toNat = loc.toNat + 1 := by
  show (loc.toNat + 1) % 2 ^ 16 = loc.toNat + 1
  omega

/-- The counter after an erased character. -/
theorem toNat_previous {loc : BitVec 16} (behind : 0 < loc.toNat) :
    (loc - 1).toNat = loc.toNat - 1 :=
  BitVec.toNat_sub_of_le (BitVec.le_def.mpr behind)

theorem Counts.next (counts : Counts s a) : (s.loc + 1).toNat = a.length + 1 := by
  have loc := counts.loc
  have bound := counts.bound
  rw [toNat_next (by omega), loc]

/-- The counter wraps only from 0 downwards. -/
theorem noWrap_of_loc {s s' : LineInput γ} (counted : s.loc ≠ 0) : NoWrap s s' :=
  fun wraps => counted wraps.1

/-- A key that changes nothing does not wrap it. -/
theorem noWrap_self (s : LineInput γ) : NoWrap s s := by
  rintro ⟨zero, wrapped⟩
  rw [zero] at wrapped
  exact absurd wrapped (by decide)

theorem terminalKey_carriage_eq (carriage : pass.key = 0x0D#8) :
    terminalKey disp pass s =
      if disp.cx s.con ≤ s.promptSize.toNat then some s
      else (setByte s.buffer s.loc.toNat 0#8).bind fun buffer =>
        some { s with
          buffer := buffer, loc := s.loc - 1, con := disp.eraseLast s.con } := by
  rw [terminalKey, carriage, if_neg (by decide), if_pos rfl]
  rfl

/-- An erase key that is taken without a character wraps it. -/
theorem terminalKey_wraps (carriage : pass.key = 0x0D#8)
    (behind : ¬ disp.cx s.con ≤ s.promptSize.toNat) (zero : s.loc = 0)
    {s' : LineInput γ} (ran : terminalKey disp pass s = some s') : ¬ NoWrap s s' := by
  have inside : s.loc.toNat < 256 := by
    rw [zero]
    decide
  rw [terminalKey_carriage_eq disp carriage, if_neg behind, setByte_inside inside,
    Option.bind_some] at ran
  obtain rfl := Option.some.inj ran
  intro safe
  apply safe
  refine ⟨zero, ?_⟩
  show s.loc - 1 = _
  rw [zero]
  rfl

theorem erases_iff (counts : Counts s a) :
    a.Erases disp ↔ ¬ disp.cx s.con ≤ s.promptSize.toNat := by
  rw [LineLength.Erases, counts.con, counts.promptSize, Int.not_le]

/-- A carriage return with a character to erase. -/
theorem terminalKey_erase (counts : Counts s a) (key : pass.key = 0x0D#8)
    (erases : a.Erases disp) (character : 1 ≤ a.length) :
    ∃ s', terminalKey disp pass s = some s' ∧ NoWrap s s' ∧
      Counts s' (a.read disp pass) := by
  have bound := counts.bound
  have loc := counts.loc
  have inside : s.loc.toNat < 256 := by omega
  have behind := (erases_iff disp counts).mp erases
  refine ⟨_, by simp only [terminalKey, key, if_neg behind, setByte_inside inside]; rfl,
    ?_, ?_⟩
  · apply noWrap_of_loc
    rintro zero
    rw [zero] at loc
    have none : 0 = a.length := loc
    omega
  · have read : a.read disp pass =
        { a with length := a.length - 1, con := disp.eraseLast a.con } := by
      simp [LineLength.read, key, erases]
    rw [read]
    refine ⟨?_, ?_, counts.promptSize, ?_⟩
    · show (s.loc - 1).toNat = a.length - 1
      rw [toNat_previous (by omega), loc]
    · show a.length - 1 ≤ 255
      omega
    · show disp.eraseLast s.con = _
      rw [counts.con]

/-- A newline. -/
theorem terminalKey_newline (counts : Counts s a) (key : pass.key = 0x0A#8) :
    ∃ s', terminalKey disp pass s = some s' ∧ NoWrap s s' ∧
      Counts s' (a.read disp pass) := by
  have bound := counts.bound
  have loc := counts.loc
  have inside : s.loc.toNat < 256 := by omega
  refine ⟨_, by simp only [terminalKey, key, setByte_inside inside]; rfl, ?_, ?_⟩
  · rintro ⟨-, wrapped⟩
    exact absurd (show 0#16 = 0xFFFF#16 from wrapped) (by decide)
  · have read : a.read disp pass = ⟨0, pass.promptSize, pass.con⟩ := by
      simp [LineLength.read, key]
    rw [read]
    exact ⟨rfl, Nat.zero_le _, rfl, rfl⟩

/-- A character with room for it. -/
theorem terminalKey_character (counts : Counts s a) (present : pass.key ≠ 0#8)
    (noReturn : pass.key ≠ 0x0D#8) (character : pass.key ≠ 0x0A#8)
    (room : a.length ≤ 254) :
    ∃ s', terminalKey disp pass s = some s' ∧ NoWrap s s' ∧
      Counts s' (a.read disp pass) := by
  have loc := counts.loc
  have next := counts.next
  have inside : s.loc.toNat < 256 := by omega
  have inside' : (s.loc + 1).toNat < 256 := by omega
  refine ⟨_, by
    simp only [terminalKey, present, noReturn, character, setByte_inside inside,
      setByte_inside inside', Option.bind_eq_bind, Option.bind_some]; rfl, ?_, ?_⟩
  · rintro ⟨-, wrapped⟩
    rw [show s.loc + 1 = 0xFFFF#16 from wrapped] at next
    have large : 0xFFFF = a.length + 1 := next
    omega
  · have read : a.read disp pass =
        { a with length := a.length + 1, con := disp.putc pass.key a.con } := by
      simp [LineLength.read, present, noReturn, character]
    rw [read]
    refine ⟨next, ?_, counts.promptSize, ?_⟩
    · show a.length + 1 ≤ 255
      omega
    · show disp.putc pass.key s.con = _
      rw [counts.con]

/-- Every key that finds the line as it should is taken safely. -/
theorem terminalKey_counts (counts : Counts s a) (holds : LineHolds disp pass a) :
    ∃ s', terminalKey disp pass s = some s' ∧ NoWrap s s' ∧
      Counts s' (a.read disp pass) := by
  by_cases none : pass.key = 0#8
  · refine ⟨s, by rw [terminalKey, if_pos none], noWrap_self s, ?_⟩
    rwa [LineLength.read, if_pos none]
  · by_cases newline : pass.key = 0x0A#8
    · exact terminalKey_newline disp counts newline
    · by_cases carriage : pass.key = 0x0D#8
      · by_cases erases : a.Erases disp
        · have character : 1 ≤ a.length := by
            simpa [LineHolds, carriage, erases] using holds
          exact terminalKey_erase disp counts carriage erases character
        · have before : disp.cx s.con ≤ s.promptSize.toNat := by
            simpa [erases_iff disp counts] using erases
          refine ⟨s, by simp [terminalKey, carriage, before], noWrap_self s, ?_⟩
          have read : a.read disp pass = a := by
            simp [LineLength.read, carriage, erases]
          rwa [read]
      · have room : a.length ≤ 254 := by
          simpa [LineHolds, none, newline, carriage] using holds
        exact terminalKey_character disp counts none carriage newline room

/-- A key that does not writes outside the buffer or takes the counter below
0. -/
theorem terminalKey_violates (counts : Counts s a)
    (violated : ¬ LineHolds disp pass a) (s' : LineInput γ)
    (ran : terminalKey disp pass s = some s') : ¬ NoWrap s s' := by
  have loc := counts.loc
  have bound := counts.bound
  rw [LineHolds] at violated
  split at violated
  · exact absurd trivial violated
  · rename_i key
    rcases not_or.mp key with ⟨present, character⟩
    split at violated
    · rename_i carriage
      rcases Classical.not_imp.mp violated with ⟨erases, empty⟩
      have zero : s.loc = 0 := by
        apply BitVec.eq_of_toNat_eq
        show s.loc.toNat = 0
        omega
      have behind := (erases_iff disp counts).mp erases
      exact terminalKey_wraps disp carriage behind zero ran
    · rename_i noReturn
      have next := counts.next
      have outside : ∀ first : Vector (BitVec 8) 256,
          setByte first (s.loc + 1).toNat 0#8 = none :=
        fun first => setByte_outside (by omega) 0#8
      simp only [terminalKey, present, noReturn, character, outside] at ran
      have fault : (setByte s.buffer s.loc.toNat pass.key).bind
          (fun _ => (none : Option (LineInput γ))) = some s' := ran
      rw [Option.bind_fun_none] at fault
      cases fault

end Keys

/-! ## Every sequence of keys -/

/-- The terminal's loop stays inside its buffer, with its counter above 0,
exactly as long as every key finds the line as it should. -/
theorem terminal_inside_buffer_iff (passes : List (Pass γ)) (con : γ) :
    RunKeeps (terminalKey disp) (fun _ => NoWrap) passes (LineInput.start con) ↔
      LineAlwaysHolds disp passes con := by
  rw [LineAlwaysHolds, ← runMeets_iff_everywhere]
  exact runKeeps_iff_meets Counts (LineLength.read disp) (counts_start con)
    (fun pass s a counts holds => terminalKey_counts disp counts holds)
    (fun pass s a counts violated => terminalKey_violates disp counts violated)

/-- The 64th key of a line goes to the end of the login's buffer, and its
terminator behind it. -/
theorem login_overruns_at_64_keys :
    ¬ ∃ t, runAll loginKey (List.replicate 64 0x61#8)
      (Login.start (Vector.replicate 64 0#8)) = some t := by
  rw [login_inside_buffer_iff]
  intro fit
  exact absurd (fit _ List.prefix_rfl (by decide)) (by decide)

/-- The line buffers of the login and of the terminal are written inside their
blocks, and `loc` does not wrap, exactly as long as the typed lines fit. -/
theorem input_inside_buffers_iff (block : Vector (BitVec 8) 64)
    (keys : List (BitVec 8)) (passes : List (Pass γ)) (con : γ) :
    ((∃ t, runAll loginKey keys (Login.start block) = some t) ∧
        RunKeeps (terminalKey disp) (fun _ => NoWrap) passes
          (LineInput.start con)) ↔
      LinesFit keys ∧ LineAlwaysHolds disp passes con := by
  rw [login_inside_buffer_iff, terminal_inside_buffer_iff]

end Os88.KernelTerminal
