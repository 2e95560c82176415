/-
Module: Os88.Installer.Placeholders
Purpose: The placeholders of install.cpp: `replace_in_string`, and the answers that
  `write_answers` puts in their place in a file.
Trusted boundary: the operations of `std::string` and of the file streams follow
  their documented behaviour, and memory and disk space do not run out.
Main exports: Text, replace, replaceInString, replaceInFile, PartitionInfo,
  writeAnswers, answers, replaceLoop_of_cut, replaceInString_of_cut,
  replaceInString_exact, replaceInFile_update, writeAnswers_setup
-/
import Mathlib.Logic.Function.Basic
import Os88.Library.Occurrences
import Os88.StringLib.Functions

namespace Os88.Installer

open Occurrences
open StringLib (bytes)

/-- The characters of a `std::string`. -/
abbrev Text := List (BitVec 8)

/-! ## Replacing in a string -/

/-- `str.replace(pos, len, to)` -/
def replace (str : Text) (pos len : Nat) (to' : Text) : Text :=
  str.take pos ++ to' ++ str.drop (pos + len)

/-- The loop of `replace_in_string`, which ends when the search returns `npos`. -/
def replaceLoop (to' : Text) {from' : Text} (nonempty : from' ≠ []) (str : Text)
    (startPos : Nat) : Text :=
  match _found : find str from' startPos with
  | none => str
  | some pos =>
      replaceLoop to' nonempty (replace str pos from'.length to') (pos + to'.length)
termination_by str.length - startPos
decreasing_by
  rcases (find_eq_some_iff nonempty).mp _found with ⟨behind, occurs, -⟩
  have inside := occurs.inside nonempty
  have some_left := List.length_pos_iff.mpr nonempty
  simp only [replace, List.length_append, List.length_take, List.length_drop]
  omega

def replaceInString (str from' to' : Text) : Text :=
  if nonempty : from' = [] then str else replaceLoop to' nonempty str 0

section Replacing

variable {str from' : Text} {pieces : List Text}

/-- The finished part in front of the position is left alone, and the rest is
joined by the replacement. -/
theorem replaceLoop_of_cut (to' : Text) (nonempty : from' ≠ [])
    (cut : Cut from' str pieces) (done : Text) :
    replaceLoop to' nonempty (done ++ str) done.length = done ++ to'.intercalate pieces := by
  induction cut generalizing done with
  | last absent =>
      have notFound := find_behind_eq_none nonempty absent done
      rw [replaceLoop]
      split
      · rw [List.intercalate_singleton]
      · next pos found => exact absurd (notFound.symm.trans found) nofun
  | @next str piece rest pieces first later inductionHypothesis =>
      have searched := first.find_behind nonempty done
      have replaced : replace (done ++ str) (done.length + piece.length) from'.length to' =
          done ++ piece ++ to' ++ rest := by
        have front : done ++ str = done ++ piece ++ (from' ++ rest) := by
          rw [first.joined]
          simp only [List.append_assoc]
        rw [replace, ← List.drop_drop, front, ← List.length_append, List.take_left,
          List.drop_left, List.drop_left]
      have position : done.length + piece.length + to'.length =
          (done ++ piece ++ to').length := by
        simp only [List.length_append]
      rw [replaceLoop]
      split
      · next notFound => exact absurd (searched.symm.trans notFound) nofun
      · next pos found =>
          obtain rfl := Option.some.inj (searched.symm.trans found)
          rw [replaced, position, inductionHypothesis,
            List.intercalate_cons_of_ne_nil later.ne_nil]
          simp only [List.append_assoc]

theorem replaceInString_of_cut (to' : Text) (nonempty : from' ≠ [])
    (cut : Cut from' str pieces) :
    replaceInString str from' to' = to'.intercalate pieces := by
  rw [replaceInString, dif_neg nonempty]
  exact replaceLoop_of_cut to' nonempty cut []

end Replacing

/-- The occurrences that are replaced are the leftmost ones that do not overlap,
and what lies between them is left as it is. -/
theorem replaceInString_exact (str from' to' : Text) :
    (from' ≠ [] → ∃ pieces, Cut from' str pieces ∧
      (∀ others, Cut from' str others → others = pieces) ∧
      from'.intercalate pieces = str ∧
      replaceInString str from' to' = to'.intercalate pieces) ∧
    (from' = [] → replaceInString str from' to' = str) := by
  constructor
  · intro nonempty
    rcases exists_cut nonempty str with ⟨pieces, cut⟩
    exact ⟨pieces, cut, fun others other => other.unique cut, cut.intercalate_eq,
      replaceInString_of_cut to' nonempty cut⟩
  · rintro rfl
    rfl

/-- A replacement that holds the placeholder, which overlaps itself. -/
theorem replaceInString_exact_overlap :
    ∃ pieces, Cut (bytes "aa") (bytes "aaabaa") pieces ∧
      (∀ others, Cut (bytes "aa") (bytes "aaabaa") others → others = pieces) ∧
      (bytes "aa").intercalate pieces = bytes "aaabaa" ∧
      replaceInString (bytes "aaabaa") (bytes "aa") (bytes "aaa") =
        (bytes "aaa").intercalate pieces :=
  (replaceInString_exact (bytes "aaabaa") (bytes "aa") (bytes "aaa")).1 (by decide)

/-! ## Replacing in a file -/

/-- What the files hold, by their paths. -/
abbrev Files := Text → Option Text

/-- On a file that is missing `tellg` returns -1 and `reserve` throws. -/
def replaceInFile (file placholder replacement : Text) (files : Files) : Option Files := do
  let str ← files file
  let str := replaceInString str placholder replacement
  return Function.update files file (some str)

structure PartitionInfo where
  path : Text
  devicepath : Text
  fs : Text
  deriving DecidableEq

def writeAnswers (mountpoint : Text) (part : PartitionInfo) (rootinstall : Bool)
    (files : Files) : Option Files := do
  let setuppath := mountpoint ++ bytes ":/os/install/setup.ini"
  let files ← replaceInFile setuppath (bytes "$DEVICE$") part.devicepath files
  let files ← replaceInFile setuppath (bytes "$PART$") part.path files
  let files ← replaceInFile setuppath (bytes "$FS$") part.fs files
  let files ← replaceInFile setuppath (bytes "$DRIVE$") mountpoint files
  replaceInFile setuppath (bytes "$MBR$") (bytes (if rootinstall then "true" else "false"))
    files

/-- The answers in the order in which they are put in. -/
def answers (mountpoint : Text) (part : PartitionInfo) (rootinstall : Bool) :
    List (Text × Text) :=
  [(bytes "$DEVICE$", part.devicepath), (bytes "$PART$", part.path), (bytes "$FS$", part.fs),
    (bytes "$DRIVE$", mountpoint),
    (bytes "$MBR$", bytes (if rootinstall then "true" else "false"))]

theorem replaceInFile_update (file placholder replacement str : Text) (files : Files) :
    replaceInFile file placholder replacement (Function.update files file (some str)) =
      some (Function.update files file (some (replaceInString str placholder replacement))) := by
  rw [replaceInFile, Function.update_self]
  simp only [Option.bind_eq_bind, Option.bind_some, Function.update_idem]
  rfl

/-- `write_answers` puts each answer in the place of its placeholder in what the
answers before it have left, and changes no other file. -/
theorem writeAnswers_setup (mountpoint : Text) (part : PartitionInfo) (rootinstall : Bool)
    {files : Files} {str : Text}
    (held : files (mountpoint ++ bytes ":/os/install/setup.ini") = some str) :
    writeAnswers mountpoint part rootinstall files =
      some (Function.update files (mountpoint ++ bytes ":/os/install/setup.ini")
        (some ((answers mountpoint part rootinstall).foldl
          (fun str (placholder, replacement) =>
            replaceInString str placholder replacement) str))) := by
  have same : files =
      Function.update files (mountpoint ++ bytes ":/os/install/setup.ini") (some str) := by
    rw [← held, Function.update_eq_self]
  rw [same, writeAnswers]
  simp only [replaceInFile_update, Option.bind_eq_bind, Option.bind_some,
    Function.update_idem]
  rfl

end Os88.Installer
