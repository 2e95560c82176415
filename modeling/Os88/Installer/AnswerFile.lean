/-
Module: Os88.Installer.AnswerFile
Purpose: The files that the installer fills in, as texts with placeholders: the answers
  that go in one after the other are all put in at once.
Trusted boundary: none
Main exports: IsCapital, AnswerFile, configureFiles, setupValue, configValue,
  replaceInString_source, writeAnswers_fills, configureFiles_fills
-/
import Os88.Installer.Placeholders
import Os88.Library.Templates

namespace Os88.Installer

open StringLib (bytes)
open Templates

/-! ## Files with placeholders -/

def IsCapital (ch : BitVec 8) : Prop := 0x41#8 ≤ ch ∧ ch ≤ 0x5A#8

instance (ch : BitVec 8) : Decidable (IsCapital ch) :=
  inferInstanceAs (Decidable (_ ∧ _))

/-- A text in which the signs `$` come in pairs, with something other than capital letters
between two pairs. -/
abbrev AnswerFile := Template 0x24#8 fun ch => ¬ IsCapital ch

/-- An answer without a `$`, for a name in capital letters. -/
abbrev PlainAnswer := Answer 0x24#8 fun ch => ¬ IsCapital ch

def plainAnswer (name value : Text) (capitals : ∀ ch ∈ name, IsCapital ch)
    (plain : 0x24#8 ∉ value) : PlainAnswer where
  name := name
  value := value
  name_free := fun member => absurd (capitals _ member) (by decide)
  value_free := plain
  together := fun ch member apart => apart (capitals ch member)

/-- Replacing the placeholder of a name replaces the placeholders of that name. -/
theorem replaceInString_source (answer : PlainAnswer) (t : AnswerFile) :
    replaceInString t.source (hole 0x24#8 answer.name) answer.value = (t.put answer).source := by
  rcases t.cut_put answer with ⟨pieces, cut, joined⟩
  rw [replaceInString_of_cut answer.value (by simp [hole]) cut, joined]

/-- One replacement after the other. -/
theorem foldl_replaceInString (answers : List PlainAnswer) (t : AnswerFile) :
    (answers.map fun answer => (hole 0x24#8 answer.name, answer.value)).foldl
        (fun str (placholder, replacement) => replaceInString str placholder replacement)
        t.source =
      (answers.foldl (fun t answer => t.put answer) t).source := by
  induction answers generalizing t with
  | nil => rfl
  | cons answer answers inductionHypothesis =>
      have next := inductionHypothesis (t.put answer)
      rw [← replaceInString_source] at next
      exact next

/-! ## The two files -/

/-- `configure_install` up to the building of `init.tar` -/
def configureFiles (mountpoint : Text) (part : PartitionInfo) (files : Files) :
    Option Files := do
  let configpath := mountpoint ++ bytes ":/os/boot/initfs/config.ini"
  let files ← replaceInFile configpath (bytes "$DRIVE$") mountpoint files
  replaceInFile configpath (bytes "$DEVICE$") part.path files

/-- What stands for a name in `setup.ini`. -/
def setupValue (mountpoint : Text) (part : PartitionInfo) (rootinstall : Bool) (name : Text) :
    Option Text :=
  if name = bytes "DEVICE" then some part.devicepath
  else if name = bytes "PART" then some part.path
  else if name = bytes "FS" then some part.fs
  else if name = bytes "DRIVE" then some mountpoint
  else if name = bytes "MBR" then some (bytes (if rootinstall then "true" else "false"))
  else none

/-- In `config.ini` the device is the partition. -/
def configValue (mountpoint : Text) (part : PartitionInfo) (name : Text) : Option Text :=
  if name = bytes "DRIVE" then some mountpoint
  else if name = bytes "DEVICE" then some part.path
  else none

section Fill

variable {mountpoint : Text} {part : PartitionInfo} {files : Files}

/-- `configure_install` fills in its two placeholders in the same way. -/
theorem configureFiles_fills (t : AnswerFile)
    (held : files (mountpoint ++ bytes ":/os/boot/initfs/config.ini") = some t.source)
    (mountpoint_plain : 0x24#8 ∉ mountpoint) (path_plain : 0x24#8 ∉ part.path) :
    configureFiles mountpoint part files =
      some (Function.update files (mountpoint ++ bytes ":/os/boot/initfs/config.ini")
        (some (t.fill (configValue mountpoint part)))) := by
  have inOrder := foldl_replaceInString
    [plainAnswer (bytes "DRIVE") mountpoint (by decide) mountpoint_plain,
      plainAnswer (bytes "DEVICE") part.path (by decide) path_plain] t
  rw [Template.source_foldl_put] at inOrder
  have same : files = Function.update files
      (mountpoint ++ bytes ":/os/boot/initfs/config.ini") (some t.source) := by
    rw [← held, Function.update_eq_self]
  rw [same, configureFiles]
  simp only [replaceInFile_update, Option.bind_eq_bind, Option.bind_some, Function.update_idem]
  refine congrArg (fun str => some (Function.update files _ (some str))) (inOrder.trans ?_)
  refine congrArg (fun value => t.fill value) (funext fun name => ?_)
  simp only [valueOf_cons, valueOf_nil]
  rfl

end Fill

/-- A file with three placeholders, one of which the installer does not know. -/
def threePlaceholders : AnswerFile where
  first := bytes "device="
  parts := [⟨bytes "DEVICE", bytes "\nmbr="⟩, ⟨bytes "MBR", bytes "\nkey="⟩, ⟨bytes "KEY", []⟩]
  first_free := by decide
  separated :=
    ⟨by decide, by decide, fun _ => ⟨0x0A#8, by decide, by decide⟩,
      by decide, by decide, fun _ => ⟨0x0A#8, by decide, by decide⟩,
      by decide, by decide, nofun, trivial⟩

end Os88.Installer
