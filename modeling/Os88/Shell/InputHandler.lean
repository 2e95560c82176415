/-
Module: Os88.Shell.InputHandler
Purpose: The input handler of include/shell.c with its one command `ls`, and the
  language that it accepts.
Trusted boundary: `count_files` and `list_files` lie outside the repository, and
  `printf` follows its documented behaviour; their calls are recorded.
Main exports: Call, Files, handleLs, handleInput, IsShort, IsLong, NearMiss,
  FollowsGrammar, handleInput_ls, handleInput_unknown, followsGrammar_iff
-/
import Os88.StringLib.Comparison

namespace Os88.Shell

open StringLib

inductive Argument where
  | string (s : List (BitVec 8))
  | int (n : Int)
deriving DecidableEq, Repr

/-- A call that prints. -/
inductive Call where
  | printf (format : String) (arguments : List Argument)
  | kprint (message : List (BitVec 8))
deriving DecidableEq, Repr

/-- `struct file_t` -/
structure FileT where
  name : List (BitVec 8)
  size : Int

/-- The files that `count_files` counts and `list_files` stores in the array of
`handle_ls`. -/
structure Files where
  listed : List FileT
  /-- The array has room for 10 files. -/
  fit : listed.length ≤ 10

def printPrompt : Call := .printf "> " []

/-- The loop of `handle_ls`. -/
def printFiles (files : Files) (flagLong : Bool) : List Call :=
  files.listed.map fun file =>
    if flagLong then .printf "%s (%d bytes)\n" [.string file.name, .int file.size]
    else .printf "%s\n" [.string file.name]

/-- `while (*flag == ' ') flag++` -/
def skipSpaces : Buffer → Option Buffer
  | [] => none
  | ch :: rest => if ch = 0x20#8 then skipSpaces rest else some (ch :: rest)

def unrecognizedFlag (flag : List (BitVec 8)) : Call :=
  .printf "Unrecognized flag `%s`\n" [.string flag]

def unknownCommand (input : List (BitVec 8)) : Call :=
  .printf "Unknown command `%s`\n" [.string input]

def handleLs (files : Files) (input : Buffer) : Option (List Call) := do
  let flag ← skipSpaces (input.drop 2)
  let ch ← flag.head?
  if ch ≠ 0#8 then
    let res ← strncmp flag (literal (bytes "-l")) 2
    if res = 0 then return printFiles files true
    else
      let shown ← text flag
      return [unrecognizedFlag shown]
  else return printFiles files false

def handleInput (files : Files) (input : Buffer) : Option (List Call) := do
  let res ← strncmp input (literal (bytes "ls")) 2
  if res = 0 then
    let calls ← handleLs files input
    return calls ++ [printPrompt]
  else
    let shown ← text input
    return [unknownCommand shown, printPrompt]

/-! ## The intended language -/

/-- "ls" and any number of spaces. -/
def IsShort (s : List (BitVec 8)) : Prop := ∃ k, s = bytes "ls" ++ List.replicate k 0x20#8

/-- "ls", one or more spaces, "-l" and any number of spaces. -/
def IsLong (s : List (BitVec 8)) : Prop :=
  ∃ k m, s = bytes "ls" ++ (List.replicate (k + 1) 0x20#8 ++
    (bytes "-l" ++ List.replicate m 0x20#8))

/-- A flag "-l" without a space in front of it, or with other text behind it. -/
def NearMiss (s : List (BitVec 8)) : Prop :=
  ∃ k t, s = bytes "ls" ++ (List.replicate k 0x20#8 ++ (bytes "-l" ++ t)) ∧
    (k = 0 ∨ ∃ ch ∈ t, ch ≠ 0x20#8)

/-- The files are listed, with or without their sizes, for the inputs of the
language, and one error message is printed for every other input. -/
structure FollowsGrammar (files : Files) (input : Buffer) (s : List (BitVec 8)) : Prop where
  short : IsShort s → handleInput files input = some (printFiles files false ++ [printPrompt])
  long : IsLong s → handleInput files input = some (printFiles files true ++ [printPrompt])
  other : ¬ IsShort s → ¬ IsLong s → ∃ error shown,
    (error = unrecognizedFlag shown ∨ error = unknownCommand shown) ∧
      handleInput files input = some [error, printPrompt]

/-! ## What the handler does -/

section Handler

variable {files : Files} {input : Buffer} {s flag : List (BitVec 8)} {k : Nat}

/-- Any text is a number of spaces and a text that starts with none. -/
theorem exists_spaces (s : List (BitVec 8)) :
    ∃ k flag, s = List.replicate k 0x20#8 ++ flag ∧ flag.head? ≠ some 0x20#8 := by
  induction s with
  | nil => exact ⟨0, [], rfl, by simp⟩
  | cons ch s inductionHypothesis =>
      by_cases blank : ch = 0x20#8
      · rcases inductionHypothesis with ⟨k, flag, rfl, starts⟩
        exact ⟨k + 1, flag, by rw [blank, List.replicate_succ, List.cons_append], starts⟩
      · exact ⟨0, ch :: s, rfl, by simpa using blank⟩

/-- It is so in one way. -/
theorem spaces_inj {k' : Nat} {flag' : List (BitVec 8)} (starts : flag.head? ≠ some 0x20#8)
    (starts' : flag'.head? ≠ some 0x20#8)
    (same : List.replicate k 0x20#8 ++ flag = List.replicate k' 0x20#8 ++ flag') :
    k = k' ∧ flag = flag' := by
  induction k generalizing k' with
  | zero =>
      cases k' with
      | zero => exact ⟨rfl, same⟩
      | succ k' =>
          rw [List.replicate_zero, List.nil_append] at same
          exact absurd (by rw [same]; rfl) starts
  | succ k inductionHypothesis =>
      cases k' with
      | zero =>
          rw [List.replicate_zero, List.nil_append] at same
          exact absurd (by rw [← same]; rfl) starts'
      | succ k' =>
          rw [List.replicate_succ, List.replicate_succ] at same
          rcases inductionHypothesis (List.cons.inj same).2 with ⟨rfl, rfl⟩
          exact ⟨rfl, rfl⟩

theorem skipSpaces_of_text (starts : flag.head? ≠ some 0x20#8)
    (held : text input = some (List.replicate k 0x20#8 ++ flag)) :
    ∃ rest, skipSpaces input = some rest ∧ text rest = some flag := by
  induction k generalizing input with
  | zero =>
      cases input with
      | nil => cases held
      | cons ch rest =>
          have other : ch ≠ 0x20#8 := by
            rintro rfl
            rcases text_cons_cases held with ⟨impossible, -⟩ | ⟨-, tail, -, same⟩
            · cases impossible
            · rw [List.replicate_zero, List.nil_append] at same
              exact starts (by rw [same]; rfl)
          exact ⟨ch :: rest, by rw [skipSpaces, if_neg other], held⟩
  | succ k inductionHypothesis =>
      cases input with
      | nil => cases held
      | cons ch rest =>
          rw [List.replicate_succ, List.cons_append] at held
          rcases text_cons_cases held with ⟨-, impossible⟩ | ⟨-, tail, heldTail, same⟩
          · cases impossible
          · obtain ⟨rfl, rfl⟩ := List.cons.inj same
            rw [skipSpaces, if_pos rfl]
            exact inductionHypothesis heldTail

/-- What `ls` prints, by the text behind the spaces. -/
def lsCalls (files : Files) (flag : List (BitVec 8)) : List Call :=
  if flag = [] then printFiles files false
  else if bytes "-l" <+: flag then printFiles files true
  else [unrecognizedFlag flag]

theorem handleLs_of_text (starts : flag.head? ≠ some 0x20#8)
    (held : text (input.drop 2) = some (List.replicate k 0x20#8 ++ flag)) :
    handleLs files input = some (lsCalls files flag) := by
  rcases skipSpaces_of_text starts held with ⟨rest, skipped, heldFlag⟩
  rcases strncmp_literal (n := 2) heldFlag (by decide : 0#8 ∉ bytes "-l") (by decide) with
    ⟨res, compared, zero⟩
  cases rest with
  | nil => cases heldFlag
  | cons ch rest =>
      rcases text_cons_cases heldFlag with ⟨rfl, rfl⟩ | ⟨present, tail, -, rfl⟩
      · simp [handleLs, skipped, lsCalls]
      · have unread : handleLs files input = (do
            let res ← strncmp (ch :: rest) (literal (bytes "-l")) 2
            if res = 0 then return printFiles files true
            else
              let shown ← text (ch :: rest)
              return [unrecognizedFlag shown]) := by
          simp [handleLs, skipped, present]
        rw [unread, compared, lsCalls, if_neg (by simp)]
        by_cases matched : bytes "-l" <+: ch :: tail
        · simp [zero.mpr matched, matched]
        · have nonzero : res ≠ 0 := mt zero.mp matched
          simp [nonzero, matched, heldFlag]

theorem text_drop {front : List (BitVec 8)} (held : text input = some (front ++ s)) :
    text (input.drop front.length) = some s := by
  rcases CString.text_eq_some_iff.mp held with ⟨nulFree, rest, rfl⟩
  rw [List.append_assoc, List.drop_left]
  exact CString.text_append_nul (fun member => nulFree (List.mem_append_right front member)) rest

/-- An input that starts with "ls", by the text behind the spaces. -/
theorem handleInput_ls (starts : flag.head? ≠ some 0x20#8)
    (held : text input = some (bytes "ls" ++ (List.replicate k 0x20#8 ++ flag))) :
    handleInput files input = some (lsCalls files flag ++ [printPrompt]) := by
  rcases strncmp_literal (n := 2) held (by decide : 0#8 ∉ bytes "ls") (by decide) with
    ⟨res, compared, zero⟩
  have matched : res = 0 := zero.mpr (List.prefix_append _ _)
  have ran : handleLs files input = some (lsCalls files flag) :=
    handleLs_of_text starts (text_drop held)
  simp [handleInput, compared, matched, ran]

theorem handleInput_unknown (held : text input = some s) (other : ¬ bytes "ls" <+: s) :
    handleInput files input = some [unknownCommand s, printPrompt] := by
  rcases strncmp_literal (n := 2) held (by decide : 0#8 ∉ bytes "ls") (by decide) with
    ⟨res, compared, zero⟩
  have differ : res ≠ 0 := mt zero.mp other
  simp [handleInput, compared, differ, held]

/-! ## The accepted language -/

/-- An input of the shape that `handle_ls` reads is short when nothing lies behind
its spaces. -/
theorem isShort_iff (starts : flag.head? ≠ some 0x20#8) :
    IsShort (bytes "ls" ++ (List.replicate k 0x20#8 ++ flag)) ↔ flag = [] := by
  constructor
  · rintro ⟨k', same⟩
    have behind : List.replicate k 0x20#8 ++ flag = List.replicate k' 0x20#8 ++ [] := by
      rw [List.append_nil]
      exact List.append_cancel_left same
    exact (spaces_inj starts (by simp) behind).2
  · rintro rfl
    exact ⟨k, by rw [List.append_nil]⟩

theorem isLong_iff (starts : flag.head? ≠ some 0x20#8) :
    IsLong (bytes "ls" ++ (List.replicate k 0x20#8 ++ flag)) ↔
      k ≠ 0 ∧ ∃ m, flag = bytes "-l" ++ List.replicate m 0x20#8 := by
  constructor
  · rintro ⟨k', m, same⟩
    rcases spaces_inj starts (by simp [bytes]) (List.append_cancel_left same) with ⟨rfl, rfl⟩
    exact ⟨Nat.succ_ne_zero k', m, rfl⟩
  · rintro ⟨some_space, m, rfl⟩
    exact ⟨k - 1, m, by rw [Nat.sub_add_cancel (Nat.pos_of_ne_zero some_space)]⟩

theorem nearMiss_iff (starts : flag.head? ≠ some 0x20#8) :
    NearMiss (bytes "ls" ++ (List.replicate k 0x20#8 ++ flag)) ↔
      ∃ t, flag = bytes "-l" ++ t ∧ (k = 0 ∨ ∃ ch ∈ t, ch ≠ 0x20#8) := by
  constructor
  · rintro ⟨k', t, same, missed⟩
    rcases spaces_inj starts (by simp [bytes]) (List.append_cancel_left same) with ⟨rfl, rfl⟩
    exact ⟨t, rfl, missed⟩
  · rintro ⟨t, rfl, missed⟩
    exact ⟨k, t, rfl, missed⟩

/-- Behind "-l" the two languages divide the inputs. -/
theorem nearMiss_iff_not_isLong {t : List (BitVec 8)} :
    NearMiss (bytes "ls" ++ (List.replicate k 0x20#8 ++ (bytes "-l" ++ t))) ↔
      ¬ IsLong (bytes "ls" ++ (List.replicate k 0x20#8 ++ (bytes "-l" ++ t))) := by
  have starts : (bytes "-l" ++ t).head? ≠ some 0x20#8 := by simp [bytes]
  rw [nearMiss_iff starts, isLong_iff starts]
  have blanks : (∃ m, bytes "-l" ++ t = bytes "-l" ++ List.replicate m 0x20#8) ↔
      ∀ ch ∈ t, ch = 0x20#8 := by
    constructor
    · rintro ⟨m, same⟩ ch member
      rw [List.append_cancel_left same] at member
      exact List.eq_of_mem_replicate member
    · intro blank
      exact ⟨t.length, by rw [← List.eq_replicate_length.mpr blank]⟩
  rw [blanks]
  constructor
  · rintro ⟨t', same, missed⟩ ⟨some_space, blank⟩
    rw [← List.append_cancel_left same] at missed
    rcases missed with zero | ⟨ch, member, other⟩
    · exact some_space zero
    · exact other (blank ch member)
  · intro missed
    refine ⟨t, rfl, ?_⟩
    by_contra neither
    push Not at neither
    exact missed neither

/-- Neither language holds an input whose flag is not "-l". -/
theorem not_isLong_of_flag (starts : flag.head? ≠ some 0x20#8)
    (other : ¬ bytes "-l" <+: flag) :
    ¬ IsLong (bytes "ls" ++ (List.replicate k 0x20#8 ++ flag)) ∧
      ¬ NearMiss (bytes "ls" ++ (List.replicate k 0x20#8 ++ flag)) := by
  rw [isLong_iff starts, nearMiss_iff starts]
  constructor
  · rintro ⟨-, m, rfl⟩
    exact other (List.prefix_append _ _)
  · rintro ⟨t, rfl, -⟩
    exact other (List.prefix_append _ _)

/-- A listing is not an error message. -/
theorem printFiles_ne_error {flagLong : Bool} {error : Call} {shown : List (BitVec 8)}
    (isError : error = unrecognizedFlag shown ∨ error = unknownCommand shown) :
    printFiles files flagLong ++ [printPrompt] ≠ [error, printPrompt] := by
  intro same
  have listed : printFiles files flagLong = [error] := by
    simpa using List.append_cancel_right (same.trans (List.append_cons [] error [printPrompt]))
  have member : error ∈ printFiles files flagLong := by simp [listed]
  rcases List.mem_map.mp member with ⟨file, -, printed⟩
  cases flagLong <;> rcases isError with rfl | rfl <;>
    simp [unrecognizedFlag, unknownCommand] at printed

theorem followsGrammar_short
    (held : text input = some (bytes "ls" ++ (List.replicate k 0x20#8 ++ []))) :
    FollowsGrammar files input (bytes "ls" ++ (List.replicate k 0x20#8 ++ [])) := by
  have ran : handleInput files input = some (printFiles files false ++ [printPrompt]) :=
    handleInput_ls (by simp) held
  refine ⟨fun _ => ran, fun isLong => ?_, fun notShort => ?_⟩
  · rcases ((isLong_iff (by simp)).mp isLong).2 with ⟨m, impossible⟩
    simp [bytes] at impossible
  · exact absurd ((isShort_iff (by simp)).mpr rfl) notShort

theorem followsGrammar_long_iff {t : List (BitVec 8)}
    (held : text input = some (bytes "ls" ++ (List.replicate k 0x20#8 ++ (bytes "-l" ++ t)))) :
    FollowsGrammar files input (bytes "ls" ++ (List.replicate k 0x20#8 ++ (bytes "-l" ++ t))) ↔
      IsLong (bytes "ls" ++ (List.replicate k 0x20#8 ++ (bytes "-l" ++ t))) := by
  have starts : (bytes "-l" ++ t).head? ≠ some 0x20#8 := by simp [bytes]
  have ran : handleInput files input = some (printFiles files true ++ [printPrompt]) := by
    rw [handleInput_ls starts held, lsCalls, if_neg (by simp [bytes]),
      if_pos (List.prefix_append _ _)]
  have notShort : ¬ IsShort (bytes "ls" ++ (List.replicate k 0x20#8 ++ (bytes "-l" ++ t))) := by
    rw [isShort_iff starts]
    simp [bytes]
  constructor
  · intro follows
    by_contra notLong
    rcases follows.other notShort notLong with ⟨error, shown, isError, printed⟩
    exact printFiles_ne_error isError (Option.some.inj (ran.symm.trans printed))
  · intro isLong
    exact ⟨fun isShort => absurd isShort notShort, fun _ => ran,
      fun _ notLong => absurd isLong notLong⟩

theorem followsGrammar_flag (starts : flag.head? ≠ some 0x20#8) (present : flag ≠ [])
    (other : ¬ bytes "-l" <+: flag)
    (held : text input = some (bytes "ls" ++ (List.replicate k 0x20#8 ++ flag))) :
    FollowsGrammar files input (bytes "ls" ++ (List.replicate k 0x20#8 ++ flag)) := by
  have ran : handleInput files input = some [unrecognizedFlag flag, printPrompt] := by
    rw [handleInput_ls starts held, lsCalls, if_neg present, if_neg other]
    rfl
  refine ⟨fun isShort => ?_, fun isLong => ?_, fun _ _ => ⟨_, flag, Or.inl rfl, ran⟩⟩
  · exact absurd ((isShort_iff starts).mp isShort) present
  · exact absurd isLong (not_isLong_of_flag starts other).1

theorem followsGrammar_unknown (held : text input = some s) (other : ¬ bytes "ls" <+: s) :
    FollowsGrammar files input s ∧ ¬ NearMiss s := by
  refine ⟨⟨?_, ?_, fun _ _ => ⟨_, s, Or.inr rfl, handleInput_unknown held other⟩⟩, ?_⟩
  · rintro ⟨k, rfl⟩
    exact absurd (List.prefix_append _ _) other
  · rintro ⟨k, m, rfl⟩
    exact absurd (List.prefix_append _ _) other
  · rintro ⟨k, t, rfl, -⟩
    exact other (List.prefix_append _ _)

/-- The handler follows the grammar for exactly the inputs that are no near
miss. -/
theorem followsGrammar_iff (files : Files) (held : text input = some s) :
    FollowsGrammar files input s ↔ ¬ NearMiss s := by
  by_cases command : bytes "ls" <+: s
  · rcases command with ⟨behind, rfl⟩
    rcases exists_spaces behind with ⟨k, flag, rfl, starts⟩
    by_cases empty : flag = []
    · subst empty
      refine iff_of_true (followsGrammar_short held) ?_
      rw [nearMiss_iff starts]
      rintro ⟨t, impossible, -⟩
      simp [bytes] at impossible
    · by_cases matched : bytes "-l" <+: flag
      · rcases matched with ⟨t, rfl⟩
        rw [followsGrammar_long_iff held, nearMiss_iff_not_isLong, not_not]
      · exact iff_of_true (followsGrammar_flag starts empty matched held)
          (not_isLong_of_flag starts matched).2
  · rcases followsGrammar_unknown held command with ⟨follows, notMiss⟩
    exact iff_of_true follows notMiss

end Handler

/-- A machine with one file. -/
def oneFile : Files := ⟨[⟨bytes "a.txt", 12⟩], by decide⟩

/-- "ls-l" lists the file with its size. -/
theorem joined_flag_listed :
    text (literal (bytes "ls-l")) = some (bytes "ls-l") ∧
      ¬ FollowsGrammar oneFile (literal (bytes "ls-l")) (bytes "ls-l") := by
  have held : text (literal (bytes "ls-l")) = some (bytes "ls-l") := by decide
  refine ⟨held, fun follows => ?_⟩
  have isLong := (followsGrammar_long_iff (k := 0) (t := []) held).mp follows
  exact ((isLong_iff (k := 0) (by simp [bytes])).mp isLong).1 rfl

/-- "ls  -l " is read as it is meant. -/
theorem followsGrammar_iff_spaced :
    text (literal (bytes "ls  -l ")) = some (bytes "ls  -l ") ∧
      FollowsGrammar oneFile (literal (bytes "ls  -l ")) (bytes "ls  -l ") := by
  have held : text (literal (bytes "ls  -l ")) = some (bytes "ls  -l ") := by decide
  refine ⟨held, (followsGrammar_iff oneFile held).mpr ?_⟩
  have split := nearMiss_iff_not_isLong (k := 2) (t := [0x20#8])
  exact split.not.mpr (not_not.mpr ⟨1, 1, rfl⟩)

end Os88.Shell
