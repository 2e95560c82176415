/-
Module: Os88.TextConsole.Pieces
Purpose: Printing a string in pieces: a colour command may not be cut in two,
  and then the pieces leave what the whole string leaves.
Trusted boundary: none
Main exports: kputChar, Complete, commands_append, ttyPrint_append,
  kputChars_effect, print_in_pieces
-/
import Mathlib.Data.List.TakeWhile
import Os88.TextConsole.Operations

namespace Os88.TextConsole

open Execution

variable {δ : Type}

def kputChar (drv : TtyDriver δ) (ch : BitVec 8) (c : Console δ) :
    Option (Console δ) :=
  (kprint drv [ch, 0] c).map Prod.snd

/-! ## Strings that end between two commands -/

/-- Read from left to right, with each `TTY_CMD_SET_COLOR` taking the byte
behind it, no `TTY_CMD_SET_COLOR` is left waiting for its byte. -/
def Complete : List (BitVec 8) → Prop
  | [] => True
  | ch :: rest =>
      if ch = TTY_CMD_SET_COLOR then
        match rest with
        | [] => False
        | _ :: rest' => Complete rest'
      else Complete rest

theorem complete_setColor (color : Color) (rest : List (BitVec 8)) :
    Complete (TTY_CMD_SET_COLOR :: color :: rest) ↔ Complete rest := by
  rw [Complete.eq_def]
  simp

theorem complete_byte {ch : BitVec 8} (ordinary : ch ≠ TTY_CMD_SET_COLOR)
    (rest : List (BitVec 8)) : Complete (ch :: rest) ↔ Complete rest := by
  rw [Complete.eq_def]
  simp [ordinary]

theorem textLength_of_nulFree {str : List (BitVec 8)} (nulFree : 0#8 ∉ str) :
    textLength str = str.length := by
  rw [textLength, List.takeWhile_eq_self_iff.mpr]
  intro ch member
  simpa using ne_of_mem_of_not_mem member nulFree

/-- The commands of a complete string come before those of what follows. -/
theorem commands_append {first : List (BitVec 8)} (nulFree : 0#8 ∉ first)
    (complete : Complete first) (second : List (BitVec 8)) :
    commands (first ++ second) = commands first ++ commands second := by
  fun_induction commands first with
  | case1 => rfl
  | case2 rest => simp at nulFree
  | case3 present => simp [Complete] at complete
  | case4 rest present => simp at nulFree
  | case5 color rest nonzero present inductionHypothesis =>
      rw [complete_setColor] at complete
      simp only [List.mem_cons, not_or] at nulFree
      rw [List.cons_append, List.cons_append, commands_setColor nonzero,
        inductionHypothesis nulFree.2.2 complete, List.cons_append]
  | case6 ch rest present ordinary inductionHypothesis =>
      rw [complete_byte ordinary] at complete
      simp only [List.mem_cons, not_or] at nulFree
      rw [List.cons_append, commands_byte present ordinary,
        inductionHypothesis nulFree.2 complete, List.cons_append]

theorem Tty.print_append (g : Geometry) {first : List (BitVec 8)}
    (nulFree : 0#8 ∉ first) (complete : Complete first) (second : List (BitVec 8))
    (tty : Tty) : tty.print g (first ++ second) = (tty.print g first).print g second := by
  rw [Tty.print, commands_append nulFree complete, List.foldl_append]
  rfl

/-- A terminator asks for nothing. -/
theorem commands_terminated {str : List (BitVec 8)} (nulFree : 0#8 ∉ str)
    (complete : Complete str) : commands (str ++ [0]) = commands str := by
  rw [commands_append nulFree complete, commands_nul, List.append_nil]

/-! ## Pieces -/

section Printing

variable (drv : TtyDriver δ) {c : Console δ}

/-- A string and its two pieces, with the values that `tty_print` returns. -/
theorem ttyPrint_append {t : TtyId} {first second : List (BitVec 8)}
    (firstFree : 0#8 ∉ first) (secondFree : 0#8 ∉ second)
    (complete : Complete first) (wellFormed : (c.ttys t).WellFormed drv.geometry) :
    ∃ whole middle final,
      ttyPrint drv t (first ++ second) c =
        some (first.length + second.length, whole) ∧
      ttyPrint drv t first c = some (first.length, middle) ∧
      ttyPrint drv t second middle = some (second.length, final) ∧
      whole.ttys = final.ttys := by
  have bothFree : 0#8 ∉ first ++ second := by
    simp [firstFree, secondFree]
  obtain ⟨whole, ranWhole, changedWhole⟩ :=
    ttyPrint_effect drv (first ++ second) wellFormed
  obtain ⟨middle, ranFirst, changedFirst⟩ := ttyPrint_effect drv first wellFormed
  obtain ⟨final, ranSecond, changedSecond⟩ := ttyPrint_effect drv second (c := middle)
    (t := t) (by rw [changedFirst.self]; exact wellFormed.print first)
  rw [textLength_of_nulFree bothFree, List.length_append] at ranWhole
  rw [textLength_of_nulFree firstFree] at ranFirst
  rw [textLength_of_nulFree secondFree] at ranSecond
  refine ⟨whole, middle, final, ranWhole, ranFirst, ranSecond, ?_⟩
  rw [changedFirst.self] at changedSecond
  rw [changedWhole.ttys, (changedFirst.trans changedSecond).ttys,
    Tty.print_append drv.geometry firstFree complete]

/-- The current process prints the same way on a console that changed at its
tty. -/
theorem ttyCurrentProcess_becomes {t : TtyId} {tty : Tty} {c' : Console δ}
    (changed : c.Becomes t tty c') : ttyCurrentProcess c' = ttyCurrentProcess c := by
  rw [ttyCurrentProcess, ttyCurrentProcess, changed.currentTty, changed.threadTty]

/-- `kput_char` serves the command of its character. -/
theorem kputChar_effect {ch : BitVec 8} (present : ch ≠ 0)
    (ordinary : ch ≠ TTY_CMD_SET_COLOR)
    (wellFormed : (c.ttys (ttyCurrentProcess c)).WellFormed drv.geometry) :
    ∃ c', kputChar drv ch c = some c' ∧
      c.Becomes (ttyCurrentProcess c)
        ((c.ttys (ttyCurrentProcess c)).print drv.geometry [ch]) c' := by
  obtain ⟨final, ran, changed⟩ := ttyPrint_effect drv [ch, 0] wellFormed
  have alone : commands [ch, 0] = commands [ch] :=
    commands_terminated (by simpa using Ne.symm present)
      ((complete_byte ordinary []).mpr trivial)
  rw [Tty.print, alone] at changed
  exact ⟨final, by rw [kputChar, kprint, ran]; rfl, changed⟩

/-- The characters of a string, one by one, have the effect of the string. -/
theorem kputChars_effect {str : List (BitVec 8)} (nulFree : 0#8 ∉ str)
    (plain : TTY_CMD_SET_COLOR ∉ str)
    (wellFormed : (c.ttys (ttyCurrentProcess c)).WellFormed drv.geometry) :
    ∃ c', runAll (kputChar drv) str c = some c' ∧
      c.Becomes (ttyCurrentProcess c)
        ((c.ttys (ttyCurrentProcess c)).print drv.geometry str) c' := by
  induction str generalizing c with
  | nil => exact ⟨c, rfl, .same _ c⟩
  | cons ch rest inductionHypothesis =>
      rw [List.mem_cons, not_or] at nulFree plain
      obtain ⟨middle, put, once⟩ :=
        kputChar_effect drv (Ne.symm nulFree.1) (Ne.symm plain.1) wellFormed
      have process := ttyCurrentProcess_becomes once
      obtain ⟨final, ran, later⟩ := inductionHypothesis (c := middle) nulFree.2 plain.2
        (by rw [process, once.self]; exact wellFormed.print [ch])
      rw [process, once.self] at later
      refine ⟨final, by rw [runAll_cons, put, Option.bind_some, ran], ?_⟩
      have together := Tty.print_append drv.geometry
        (show 0#8 ∉ [ch] by simpa using nulFree.1)
        ((complete_byte (Ne.symm plain.1) []).mpr trivial)
        rest (c.ttys (ttyCurrentProcess c))
      rw [List.singleton_append] at together
      rw [together]
      exact once.trans later

/-- Printing in pieces equals printing at once: a string without NUL bytes that
ends between two commands, followed by a second one, and a string without
colour commands, character by character. -/
theorem print_in_pieces (wellFormed : c.WellFormed drv.geometry) :
    (∀ t first second, 0#8 ∉ first → 0#8 ∉ second → Complete first →
      ∃ whole middle final,
        ttyPrint drv t (first ++ second) c =
          some (first.length + second.length, whole) ∧
        ttyPrint drv t first c = some (first.length, middle) ∧
        ttyPrint drv t second middle = some (second.length, final) ∧
        (whole.ttys t).x = (final.ttys t).x ∧ (whole.ttys t).y = (final.ttys t).y ∧
        (whole.ttys t).color = (final.ttys t).color ∧
        (whole.ttys t).mem = (final.ttys t).mem) ∧
    ∀ str, 0#8 ∉ str → TTY_CMD_SET_COLOR ∉ str →
      ∃ whole final, kprint drv str c = some (str.length, whole) ∧
        runAll (kputChar drv) str c = some final ∧ whole.ttys = final.ttys := by
  constructor
  · intro t first second firstFree secondFree complete
    obtain ⟨whole, middle, final, ranWhole, ranFirst, ranSecond, same⟩ :=
      ttyPrint_append drv firstFree secondFree complete (wellFormed t)
    exact ⟨whole, middle, final, ranWhole, ranFirst, ranSecond, by rw [same],
      by rw [same], by rw [same], by rw [same]⟩
  · intro str nulFree plain
    obtain ⟨whole, ran, changed⟩ :=
      ttyPrint_effect drv str (wellFormed (ttyCurrentProcess c))
    obtain ⟨final, put, changed'⟩ :=
      kputChars_effect drv nulFree plain (wellFormed (ttyCurrentProcess c))
    rw [textLength_of_nulFree nulFree] at ran
    exact ⟨whole, final, ran, put, by rw [changed.ttys, changed'.ttys]⟩

end Printing

theorem print_in_pieces_two_by_two :
    (∀ t first second, 0#8 ∉ first → 0#8 ∉ second → Complete first →
      ∃ whole middle final,
        ttyPrint (plainDriver ⟨2, 2, by decide, by decide, by decide⟩) t
            (first ++ second)
            (initTty (plainDriver ⟨2, 2, by decide, by decide, by decide⟩) none ()) =
          some (first.length + second.length, whole) ∧
        ttyPrint (plainDriver ⟨2, 2, by decide, by decide, by decide⟩) t first
            (initTty (plainDriver ⟨2, 2, by decide, by decide, by decide⟩) none ()) =
          some (first.length, middle) ∧
        ttyPrint (plainDriver ⟨2, 2, by decide, by decide, by decide⟩) t second
            middle = some (second.length, final) ∧
        (whole.ttys t).x = (final.ttys t).x ∧ (whole.ttys t).y = (final.ttys t).y ∧
        (whole.ttys t).color = (final.ttys t).color ∧
        (whole.ttys t).mem = (final.ttys t).mem) ∧
    ∀ str, 0#8 ∉ str → TTY_CMD_SET_COLOR ∉ str →
      ∃ whole final,
        kprint (plainDriver ⟨2, 2, by decide, by decide, by decide⟩) str
            (initTty (plainDriver ⟨2, 2, by decide, by decide, by decide⟩) none ()) =
          some (str.length, whole) ∧
        runAll (kputChar (plainDriver ⟨2, 2, by decide, by decide, by decide⟩)) str
            (initTty (plainDriver ⟨2, 2, by decide, by decide, by decide⟩) none ()) =
          some final ∧ whole.ttys = final.ttys :=
  print_in_pieces (plainDriver ⟨2, 2, by decide, by decide, by decide⟩)
    (initTty_wellFormed (plainDriver ⟨2, 2, by decide, by decide, by decide⟩)
      (plainDriver_givesMemory _) none ())

end Os88.TextConsole
