/-
Module: Os88.KernelTerminal.WorkingDirectory
Purpose: The working directory of the kernel terminal against a stack of
  directory names.
Trusted boundary: none
Main exports: Step, Stack, render, HoldsPath, PathFollows, path_follows_iff
-/
import Mathlib.Data.List.Infix
import Os88.Library.Execution
import Os88.KernelTerminal.Model

namespace Os88.KernelTerminal

open Execution
open StringLib

/-! ## The stack of names -/

/-- The directories entered from the root, the innermost last. -/
abbrev Stack := List (List (BitVec 8))

/-- The path of a stack: a slash, then every name followed by a slash. -/
def render (stack : Stack) : List (BitVec 8) :=
  0x2F#8 :: stack.flatMap fun name => name ++ [0x2F#8]

/-- A name that `cd` takes as one argument and for a directory of its own. -/
structure ValidName (name : List (BitVec 8)) : Prop where
  nonempty : name ≠ []
  noSlash : 0x2F#8 ∉ name
  noSpace : 0x20#8 ∉ name
  nulFree : 0#8 ∉ name
  notHere : name ≠ hereWord
  notParent : name ≠ parentWord

/-- One `cd` command: `cd name` where `vfs_exist_in_dir` gives `found`, `cd ..`
or `cd .`. -/
inductive Step where
  | enter (name : List (BitVec 8)) (found : Bool)
  | parent (found : Bool)
  | here (found : Bool)
deriving DecidableEq, Repr

def Step.Valid : Step → Prop
  | .enter name _ => ValidName name
  | _ => True

/-- What a `cd` command means for the stack. -/
def Step.apply (stack : Stack) : Step → Stack
  | .enter name found => if found then stack ++ [name] else stack
  | .parent _ => stack.dropLast
  | .here _ => stack

def stackAfter (steps : List Step) : Stack :=
  steps.foldl Step.apply []

/-! ## Running the terminal -/

def Step.argument : Step → List (BitVec 8)
  | .enter name _ => name
  | .parent _ => parentWord
  | .here _ => hereWord

def Step.found : Step → Bool
  | .enter _ found => found
  | .parent found => found
  | .here found => found

/-- A command that is entered: what follows its line in the command buffer, and
the answers that only `fl` would use. -/
structure Entry where
  step : Step
  rest : Buffer
  device : Option Device
  mounts : Bool
  block : Vector (BitVec 8) 512

/-- The line of a `cd` command in the command buffer. -/
def Entry.buffer (entry : Entry) : Buffer :=
  cdWord ++ [0x20#8] ++ entry.step.argument ++ 0#8 :: entry.rest

def Entry.exec (names : Names) (entry : Entry) (t : Terminal) :
    Option Terminal :=
  runLine names entry.buffer
    ⟨entry.step.found, entry.device, entry.mounts, entry.block⟩ t

/-- Enter `fl` and an identifier, on a device that can be mounted. -/
def mountRoot (names : Names) (id : List (BitVec 8)) (rest : Buffer)
    (device : Device) (block : Vector (BitVec 8) 512) (t : Terminal) :
    Option Terminal :=
  runLine names (flWord ++ [0x20#8] ++ id ++ 0#8 :: rest)
    ⟨false, some device, true, block⟩ t

/-- The stack that the commands entered mean. -/
def stackOf (entries : List Entry) : Stack :=
  stackAfter (entries.map Entry.step)

/-- After every part of the run, the working directory is the path of the
stack. -/
def PathFollows (names : Names) (t : Terminal) (entries : List Entry) : Prop :=
  ∀ before, before <+: entries →
    ∃ t', runAll (Entry.exec names) before t = some t' ∧
      text t'.wd = some (render (stackOf before))

/-- Every path of the run, with its terminator, fits the 512 bytes of `wd`. -/
def Fits (entries : List Entry) : Prop :=
  ∀ before, before <+: entries → (render (stackOf before)).length + 1 ≤ 512

/-- `cd ..` is entered in the root only. -/
def ParentAtRootOnly (entries : List Entry) : Prop :=
  ∀ before entry found, before ++ [entry] <+: entries →
    entry.step = .parent found → stackOf before = []

/-! ## Paths -/

theorem render_concat (stack : Stack) (name : List (BitVec 8)) :
    render (stack ++ [name]) = render stack ++ name ++ [0x2F#8] := by
  simp [render]

theorem render_length_pos (stack : Stack) : 0 < (render stack).length :=
  Nat.succ_pos _

theorem render_nil : render [] = [0x2F#8] := rfl

theorem stackOf_concat (entries : List Entry) (entry : Entry) :
    stackOf (entries ++ [entry]) = entry.step.apply (stackOf entries) := by
  simp [stackOf, stackAfter]

theorem step_apply_valid {stack : Stack} {step : Step} (valid : step.Valid)
    (names : ∀ name ∈ stack, ValidName name) :
    ∀ name ∈ step.apply stack, ValidName name := by
  cases step with
  | enter name found =>
      cases found with
      | false => exact names
      | true =>
          intro other member
          rcases List.mem_append.mp member with earlier | now
          · exact names other earlier
          · rw [List.mem_singleton.mp now]
            exact valid
  | parent found =>
      exact fun name member => names name (List.mem_of_mem_dropLast member)
  | here found => exact names

theorem stackOf_valid {entries : List Entry}
    (valid : ∀ entry ∈ entries, entry.step.Valid) :
    ∀ name ∈ stackOf entries, ValidName name := by
  induction entries using List.reverseRecOn with
  | nil => simp [stackOf, stackAfter]
  | append_singleton entries last inductionHypothesis =>
      rw [stackOf_concat]
      apply step_apply_valid (valid last (by simp))
      exact inductionHypothesis fun entry member =>
        valid entry (List.mem_append_left _ member)

/-! ## The terminal holds a path -/

/-- A root is mounted and `wd`, a block of 512 bytes, holds the path. -/
structure HoldsPath (t : Terminal) (path : List (BitVec 8)) : Prop where
  mounted : t.rootMounted = true
  held : text t.wd = some path
  length : t.wd.length = 512

section Lines

variable {names : Names} {t : Terminal} {word path arg : List (BitVec 8)}
  {rest : Buffer} {answers : Answers}

/-- A line is split at the space behind its first word. -/
theorem strsplit_line (wordFree : 0#8 ∉ word) (oneWord : 0x20#8 ∉ word)
    (argFree : 0#8 ∉ arg) (rest : Buffer) :
    strsplit (word ++ [0x20#8] ++ arg ++ 0#8 :: rest) 0x20#8 =
      some (arg.count 0x20#8 + 2,
        word ++ 0#8 :: (arg.map (fun ch => if ch = 0x20#8 then 0#8 else ch) ++
          0#8 :: rest)) := by
  have lineFree : 0#8 ∉ word ++ [0x20#8] ++ arg := by
    simp [wordFree, argFree]
  have kept := map_delim_of_not_mem oneWord
  have noneInWord : word.count 0x20#8 = 0 := List.count_eq_zero_of_not_mem oneWord
  have spaces : (word ++ [0x20#8] ++ arg).count 0x20#8 = arg.count 0x20#8 + 1 := by
    rw [List.count_append, List.count_append, noneInWord,
      List.count_singleton_self, Nat.zero_add, Nat.add_comm]
  rw [strsplit_of_nulFree 0x20#8 lineFree rest, spaces]
  simp only [List.map_append, List.map_cons, kept, if_true, List.append_assoc,
    List.cons_append, List.nil_append]

theorem argument_of_word (wordFree : 0#8 ∉ word) (after : Buffer) :
    argument (word ++ 0#8 :: after) = some after := by
  rw [argument, strlen_of_text (CString.text_append_nul wordFree after)]
  simp [List.drop_append]

theorem cdWord_nulFree : 0#8 ∉ cdWord := by decide

theorem flWord_nulFree : 0#8 ∉ flWord := by decide

theorem hereWord_nulFree : 0#8 ∉ hereWord := by decide

theorem parentWord_nulFree : 0#8 ∉ parentWord := by decide

theorem hereWord_oneWord : 0x20#8 ∉ hereWord := by decide

theorem parentWord_oneWord : 0x20#8 ∉ parentWord := by decide

/-- The line `cd arg` reaches the branch for `cd` with its two words. -/
theorem runLine_cd (argFree : 0#8 ∉ arg) (oneArg : 0x20#8 ∉ arg) :
    runLine names (cdWord ++ [0x20#8] ++ arg ++ 0#8 :: rest) answers t =
      cdCommand names (cdWord ++ 0#8 :: (arg ++ 0#8 :: rest)) 2 answers t := by
  have split := strsplit_line cdWord_nulFree (by decide) argFree rest
  rw [map_delim_of_not_mem oneArg, List.count_eq_zero_of_not_mem oneArg] at split
  obtain ⟨res, compared, zero⟩ := strcmp_literal cdWord_nulFree cdWord_nulFree
    (arg ++ 0#8 :: rest)
  have isCd : res = 0#32 := zero.mpr rfl
  simp only [runLine, split, compared, isCd, Option.bind_eq_bind,
    Option.bind_some, if_true]

/-- The line `fl id` reaches the branch for `fl`. -/
theorem runLine_fl {id : List (BitVec 8)} (idFree : 0#8 ∉ id) (names : Names)
    (rest : Buffer) (answers : Answers) (t : Terminal) :
    ∃ arg n s, text arg = some s ∧
      runLine names (flWord ++ [0x20#8] ++ id ++ 0#8 :: rest) answers t =
        flCommand names (flWord ++ 0#8 :: arg) (n + 2) answers t := by
  have split := strsplit_line flWord_nulFree (by decide) idFree rest
  obtain ⟨res, compared, zero⟩ := strcmp_literal cdWord_nulFree flWord_nulFree
    (id.map (fun ch => if ch = 0x20#8 then 0#8 else ch) ++ 0#8 :: rest)
  obtain ⟨res', compared', zero'⟩ := strcmp_literal flWord_nulFree flWord_nulFree
    (id.map (fun ch => if ch = 0x20#8 then 0#8 else ch) ++ 0#8 :: rest)
  have notCd : res ≠ 0#32 := fun isZero => absurd (zero.mp isZero) (by decide)
  have isFl : res' = 0#32 := zero'.mpr rfl
  obtain ⟨s, held⟩ : ∃ s, text
      (id.map (fun ch => if ch = 0x20#8 then 0#8 else ch) ++ 0#8 :: rest) = some s :=
    CString.exists_text_of_mem (by simp)
  refine ⟨_, id.count 0x20#8, s, held, ?_⟩
  simp only [runLine, split, compared, notCd, compared', isFl,
    Option.bind_eq_bind, Option.bind_some, if_true, if_false]

/-- What `cd` does with the second word of its line once a root is mounted. -/
theorem cdCommand_of_text (mounted : t.rootMounted = true) {buffer argBuffer : Buffer} {n : Nat}
    (several : 2 ≤ n) (second : argument buffer = some argBuffer)
    (heldArg : text argBuffer = some arg) (answers : Answers) :
    cdCommand names buffer n answers t =
      if arg = hereWord then some t
      else if arg = parentWord then cdParent names t
      else if answers.existInDir then cdEnter names argBuffer t
      else some t := by
  rcases CString.text_eq_some_iff.mp heldArg with ⟨argFree, rest, rfl⟩
  obtain ⟨here, comparedHere, hereZero⟩ := strcmp_literal hereWord_nulFree argFree rest
  obtain ⟨parent, comparedParent, parentZero⟩ := strcmp_literal parentWord_nulFree argFree rest
  have enough : ¬ (n = 0 ∨ n = 1) := by omega
  simp only [cdCommand, mounted, enough, second, comparedHere, comparedParent, hereZero,
    parentZero, Option.bind_eq_bind, Option.bind_some, Bool.not_true, Bool.false_eq_true,
    if_false]
  rfl

theorem cdCommand_of_mounted (mounted : t.rootMounted = true)
    (argFree : 0#8 ∉ arg) :
    cdCommand names (cdWord ++ 0#8 :: (arg ++ 0#8 :: rest)) 2 answers t =
      if arg = hereWord then some t
      else if arg = parentWord then cdParent names t
      else if answers.existInDir then cdEnter names (arg ++ 0#8 :: rest) t
      else some t :=
  cdCommand_of_text mounted (Nat.le_refl 2) (argument_of_word cdWord_nulFree _)
    (CString.text_append_nul argFree rest) answers

/-! ## What `cd` does to the path -/

/-- The byte before the last one of a path below the root ends a name. -/
theorem render_before_last (stack : Stack) {name : List (BitVec 8)}
    (valid : ValidName name) :
    ∃ ch, ch ≠ 0x2F#8 ∧
      (render (stack ++ [name]))[(render (stack ++ [name])).length - 2]? =
        some ch := by
  obtain ⟨front, ch, rfl⟩ :=
    (List.eq_nil_or_concat name).resolve_left valid.nonempty
  rw [List.concat_eq_append] at valid
  refine ⟨ch, fun slash => valid.noSlash (by simp [slash]), ?_⟩
  have position : (render stack ++ (front ++ [ch]) ++ [0x2F#8]).length - 2 =
      (render stack ++ front).length := by
    simp only [List.length_append, List.length_singleton]
    omega
  rw [List.concat_eq_append, render_concat, position]
  simp

/-- `cd ..` cuts the last byte off the path, if the one in front of it is a slash. -/
def parentPath (path : List (BitVec 8)) : List (BitVec 8) :=
  if path.length ≠ 1 ∧ path[path.length - 2]? = some 0x2F#8 then
    path.take (path.length - 1)
  else path

/-- `cd ..` writes inside the path. -/
theorem cdParent_of_path (holds : HoldsPath t path) (nonempty : path ≠ []) (names : Names) :
    ∃ t', cdParent names t = some t' ∧ HoldsPath t' (parentPath path) := by
  have length := strlen_of_text holds.held
  have fits := CString.length_lt_of_text holds.held
  have size := holds.length
  have some_left := List.length_pos_iff.mpr nonempty
  by_cases root : path.length = 1
  · have kept : parentPath path = path := if_neg fun both => both.1 root
    rw [kept]
    refine ⟨t, ?_, holds⟩
    simp only [cdParent, length, root, Option.bind_eq_bind, Option.bind_some, if_true]
    rfl
  · have position : path.length - 2 < path.length := by omega
    have before := List.getElem?_eq_getElem position
    have backspace := @strBackspace_of_long _ _ 0x2F#8 _ holds.held (by omega) (by omega) before
    by_cases slash : path[path.length - 2] = 0x2F#8
    · have cut : parentPath path = path.take (path.length - 1) :=
        if_pos ⟨root, by rw [before, slash]⟩
      have held := CString.text_set_nul holds.held (i := path.length - 1) (by omega)
      rw [if_pos slash] at backspace
      rw [cut]
      refine ⟨⟨t.rootMounted, t.wd.set (path.length - 1) 0#8,
        promptSizeOf names (path.take (path.length - 1)).length, t.printed⟩, ?_,
          holds.mounted, held, (List.length_set ..).trans size⟩
      simp only [cdParent, length, root, backspace, strlen_of_text held, Option.bind_eq_bind,
        Option.bind_some, if_false]
      rfl
    · have kept : parentPath path = path := by
        refine if_neg fun both => slash ?_
        exact Option.some.inj (before.symm.trans both.2)
      rw [if_neg slash] at backspace
      rw [kept]
      refine ⟨⟨t.rootMounted, t.wd, promptSizeOf names path.length, t.printed⟩, ?_,
        holds.mounted, holds.held, size⟩
      simp only [cdParent, length, root, backspace, Option.bind_eq_bind, Option.bind_some,
        if_false]
      rfl

/-- `cd ..` leaves the path of a stack as it is: no two slashes end it. -/
theorem parentPath_render {stack : Stack} (valid : ∀ name ∈ stack, ValidName name) :
    parentPath (render stack) = render stack := by
  rcases List.eq_nil_or_concat stack with rfl | ⟨front, name, rfl⟩
  · exact if_neg fun both => both.1 (by rw [render_nil]; rfl)
  · rw [List.concat_eq_append] at valid ⊢
    obtain ⟨ch, other, before⟩ := render_before_last front (valid name (by simp))
    refine if_neg fun both => other ?_
    exact Option.some.inj (before.symm.trans both.2)

theorem cdParent_keeps {stack : Stack} (valid : ∀ name ∈ stack, ValidName name)
    (holds : HoldsPath t (render stack)) :
    ∃ t', cdParent names t = some t' ∧ HoldsPath t' (render stack) := by
  have nonempty : render stack ≠ [] := List.length_pos_iff.mp (render_length_pos stack)
  have cut := cdParent_of_path holds nonempty names
  rwa [parentPath_render valid] at cut

/-- The block in which `cd` joins the new path is exactly filled. -/
theorem joinPath_of_text {wd : Buffer} (held : text wd = some path)
    (argFree : 0#8 ∉ arg) (rest : Buffer) :
    joinPath wd (arg ++ 0#8 :: rest) =
      some (path ++ arg ++ [0x2F#8] ++ [0#8]) := by
  have pathLength := strlen_of_text held
  have argLength := strlen_of_text (CString.text_append_nul argFree rest)
  rcases CString.text_eq_some_iff.mp held with ⟨pathFree, junk, rfl⟩
  have blank : List.replicate (path.length + arg.length + 2) 0#8 =
      [] ++ List.replicate path.length 0#8 ++
        List.replicate (arg.length + 2) 0#8 := by
    rw [List.nil_append, List.replicate_append_replicate, Nat.add_assoc]
  have room : List.replicate (arg.length + 2) 0#8 =
      List.replicate arg.length 0#8 ++ [0#8, 0#8] :=
    List.replicate_add ..
  have first : memcpy (List.replicate (path.length + arg.length + 2) 0#8) 0
      (path ++ 0#8 :: junk) path.length =
        some (path ++ List.replicate (arg.length + 2) 0#8) := by
    rw [blank]
    exact memcpy_piece [] _ path _ (List.length_replicate ..)
  have second : memcpy (path ++ List.replicate (arg.length + 2) 0#8) path.length
      (arg ++ 0#8 :: rest) arg.length = some (path ++ arg ++ [0#8, 0#8]) := by
    rw [room, ← List.append_assoc]
    exact memcpy_piece path _ arg _ (List.length_replicate ..)
  have joinedLength : strlen (path ++ arg ++ [0#8, 0#8]) =
      some (path ++ arg).length :=
    strlen_of_text (CString.text_append_nul (by simp [pathFree, argFree]) [0#8])
  have third : memcpy (path ++ arg ++ [0#8, 0#8]) (path ++ arg).length
      [0x2F#8, 0#8, 0#8] 2 = some (path ++ arg ++ [0x2F#8] ++ [0#8]) := by
    have zeros : [0#8, 0#8].length = [0x2F#8, 0#8].length := rfl
    simpa using memcpy_piece (path ++ arg) [] [0x2F#8, 0#8] [0#8] zeros
  simp only [joinPath, pathLength, argLength, first, second, joinedLength, third,
    Option.bind_eq_bind, Option.bind_some]

/-- `cd` into a directory appends its name, as long as the path fits. -/
theorem cdEnter_appends (holds : HoldsPath t path) (argFree : 0#8 ∉ arg)
    (fits : path.length + arg.length + 2 ≤ 512) (names : Names) (rest : Buffer) :
    ∃ t', cdEnter names (arg ++ 0#8 :: rest) t = some t' ∧
      HoldsPath t' (path ++ arg ++ [0x2F#8]) := by
  have size := holds.length
  have pathFree := (CString.text_eq_some_iff.mp holds.held).1
  have newFree : 0#8 ∉ path ++ arg ++ [0x2F#8] := by
    simp [pathFree, argFree]
  have joined := joinPath_of_text holds.held argFree rest
  have joinedLength := strlen_of_text (CString.text_append_nul newFree [])
  have copied : memcpy t.wd 0 (path ++ arg ++ [0x2F#8] ++ [0#8])
      ((path ++ arg ++ [0x2F#8]).length + 1) =
        some (path ++ arg ++ [0x2F#8] ++
          0#8 :: t.wd.drop ((path ++ arg ++ [0x2F#8]).length + 1)) := by
    have room : (t.wd.take ((path ++ arg ++ [0x2F#8]).length + 1)).length =
        (path ++ arg ++ [0x2F#8] ++ [0#8]).length := by
      simp
      omega
    have copied := memcpy_piece []
      (t.wd.drop ((path ++ arg ++ [0x2F#8]).length + 1))
      (path ++ arg ++ [0x2F#8] ++ [0#8]) [] room
    simpa [Nat.add_assoc] using copied
  have held := CString.text_append_nul newFree
    (t.wd.drop ((path ++ arg ++ [0x2F#8]).length + 1))
  refine ⟨⟨t.rootMounted, _, promptSizeOf names (path ++ arg ++ [0x2F#8]).length,
    t.printed⟩, ?_, holds.mounted, held, ?_⟩
  · simp only [cdEnter, joined, joinedLength, copied, strlen_of_text held,
      Option.bind_eq_bind, Option.bind_some]
    rfl
  · simp
    omega

/-- `fl` on a device that can be mounted starts at the path of the root. -/
theorem mountRoot_holds {id : List (BitVec 8)} (idFree : 0#8 ∉ id)
    (names : Names) (rest : Buffer) (device : Device)
    (block : Vector (BitVec 8) 512) (t : Terminal) :
    ∃ t0, mountRoot names id rest device block t = some t0 ∧
      HoldsPath t0 (render []) := by
  obtain ⟨arg, n, s, argHeld, reached⟩ :=
    runLine_fl idFree names rest ⟨false, some device, true, block⟩ t
  rcases atoi_of_text argHeld with ⟨devid, converted⟩
  have enough : ¬ (n + 2 = 0 ∨ n + 2 = 1) := by omega
  have size : block.toList.length = 512 := Vector.length_toList
  have copied : memcpy block.toList 0 [0x2F#8, 0#8] 2 =
      some ([0x2F#8] ++ 0#8 :: block.toList.drop 2) := by
    have room : (block.toList.take 2).length = [0x2F#8, 0#8].length := by
      simp [size]
    simpa using memcpy_piece [] (block.toList.drop 2) [0x2F#8, 0#8] [] room
  have held : text ([0x2F#8] ++ 0#8 :: block.toList.drop 2) = some [0x2F#8] :=
    CString.text_append_nul (by decide) _
  rw [mountRoot, reached, flCommand, if_neg enough,
    argument_of_word flWord_nulFree]
  simp only [converted, copied, strlen_of_text held, Option.bind_eq_bind,
    Option.bind_some, if_true]
  exact ⟨_, rfl, rfl, held, by simp [size]⟩

end Lines

/-! ## Runs -/

/-- What the code makes of a command: `cd ..` changes nothing. -/
def Step.performed (stack : Stack) : Step → Stack
  | .parent _ => stack
  | step => step.apply stack

theorem Step.argument_free {step : Step} (valid : step.Valid) :
    0#8 ∉ step.argument ∧ 0x20#8 ∉ step.argument := by
  cases step with
  | enter name found => exact ⟨valid.nulFree, valid.noSpace⟩
  | parent found => exact ⟨parentWord_nulFree, parentWord_oneWord⟩
  | here found => exact ⟨hereWord_nulFree, hereWord_oneWord⟩

section Runs

variable {names : Names} {t : Terminal}

/-- What `cd` does with the argument of a command whose path fits. -/
theorem argument_effect {step : Step} {stack : Stack} (valid : step.Valid)
    (below : ∀ name ∈ stack, ValidName name)
    (fits : (render (step.performed stack)).length + 1 ≤ 512)
    (holds : HoldsPath t (render stack)) (rest : Buffer) :
    ∃ t', (if step.argument = hereWord then some t
        else if step.argument = parentWord then cdParent names t
        else if step.found then cdEnter names (step.argument ++ 0#8 :: rest) t
        else some t) = some t' ∧
      HoldsPath t' (render (step.performed stack)) := by
  cases step with
  | enter name found =>
      rw [Step.argument, if_neg valid.notHere, if_neg valid.notParent]
      cases found with
      | false => exact ⟨t, rfl, holds⟩
      | true =>
          have new : render (stack ++ [name]) = render stack ++ name ++ [0x2F#8] :=
            render_concat stack name
          have room : (render (stack ++ [name])).length + 1 ≤ 512 := fits
          rw [new] at room
          simp only [List.length_append, List.length_singleton] at room
          obtain ⟨t', entered, held⟩ :=
            cdEnter_appends holds valid.nulFree (by omega) names rest
          rw [← new] at held
          exact ⟨t', entered, held⟩
  | parent found =>
      have notHere : parentWord ≠ hereWord := by decide
      rw [Step.argument, if_neg notHere, if_pos rfl]
      exact cdParent_keeps below holds
  | here found =>
      rw [Step.argument, if_pos rfl]
      exact ⟨t, rfl, holds⟩

/-- One command, entered where its path fits. -/
theorem exec_effect {entry : Entry} {stack : Stack}
    (valid : entry.step.Valid) (below : ∀ name ∈ stack, ValidName name)
    (fits : (render (entry.step.performed stack)).length + 1 ≤ 512)
    (holds : HoldsPath t (render stack)) :
    ∃ t', entry.exec names t = some t' ∧
      HoldsPath t' (render (entry.step.performed stack)) := by
  rcases Step.argument_free valid with ⟨argFree, oneArg⟩
  rw [Entry.exec, Entry.buffer, runLine_cd argFree oneArg,
    cdCommand_of_mounted holds.mounted argFree]
  exact argument_effect valid below fits holds entry.rest

/-- Entered in the root, `cd ..` means nothing either. -/
theorem performed_eq_apply {step : Step} {stack : Stack}
    (atRoot : ∀ found, step = .parent found → stack = []) :
    step.performed stack = step.apply stack := by
  cases step with
  | enter name found => rfl
  | parent found =>
      rw [atRoot found rfl]
      rfl
  | here found => rfl

theorem render_dropLast_ne {stack : Stack} (below : stack ≠ []) :
    render stack.dropLast ≠ render stack := by
  rcases (List.eq_nil_or_concat stack).resolve_left below with ⟨front, name, rfl⟩
  rw [List.concat_eq_append, List.dropLast_concat, render_concat]
  intro same
  have lengths := congrArg List.length same
  simp at lengths

theorem ParentAtRootOnly.before {entries before : List Entry}
    (atRoot : ParentAtRootOnly entries) (isPrefix : before <+: entries) :
    ParentAtRootOnly before :=
  fun front entry found inside => atRoot front entry found (inside.trans isPrefix)

section Soundness

variable {entries : List Entry} (valid : ∀ entry ∈ entries, entry.step.Valid)
  (fits : Fits entries) (start : HoldsPath t (render []))

include valid fits start

/-- While `cd ..` is entered in the root only, the terminal holds the path of
the stack. -/
theorem run_holds (atRoot : ParentAtRootOnly entries) :
    ∃ t', runAll (Entry.exec names) entries t = some t' ∧
      HoldsPath t' (render (stackOf entries)) := by
  induction entries using List.reverseRecOn with
  | nil => exact ⟨t, rfl, start⟩
  | append_singleton entries last inductionHypothesis =>
      have earlier : ∀ entry ∈ entries, entry.step.Valid :=
        fun entry member => valid entry (List.mem_append_left _ member)
      have inside : entries <+: entries ++ [last] := List.prefix_append _ _
      obtain ⟨middle, ran, holds⟩ := inductionHypothesis earlier
        (fun before isPrefix => fits before (isPrefix.trans inside))
        (atRoot.before inside)
      have same := performed_eq_apply fun found isParent =>
        atRoot entries last found (List.prefix_refl _) isParent
      have room := fits (entries ++ [last]) (List.prefix_refl _)
      rw [stackOf_concat, ← same] at room
      obtain ⟨final, stepped, held⟩ : ∃ t', last.exec names middle = some t' ∧
          HoldsPath t' (render (last.step.performed (stackOf entries))) :=
        exec_effect (valid last (by simp)) (stackOf_valid earlier) room holds
      refine ⟨final, by rw [runAll_concat, ran, Option.bind_some, stepped], ?_⟩
      rw [stackOf_concat, ← same]
      exact held

/-- A `cd ..` below the root leaves the path behind the stack. -/
theorem parentAtRootOnly_of_follows
    (follows : PathFollows names t entries) : ParentAtRootOnly entries := by
  induction entries using List.reverseRecOn with
  | nil =>
      intro before entry found inside
      simp at inside
  | append_singleton entries last inductionHypothesis =>
      have earlier : ∀ entry ∈ entries, entry.step.Valid :=
        fun entry member => valid entry (List.mem_append_left _ member)
      have inside : entries <+: entries ++ [last] := List.prefix_append _ _
      have fitsEarlier : Fits entries :=
        fun before isPrefix => fits before (isPrefix.trans inside)
      have atRoot := inductionHypothesis earlier fitsEarlier
        fun before isPrefix => follows before (isPrefix.trans inside)
      intro before entry found isPrefix isParent
      rcases List.prefix_concat_iff.mp isPrefix with now | earlierStep
      · rcases List.append_singleton_inj.mp now with ⟨rfl, rfl⟩
        by_contra below
        obtain ⟨middle, ran, holds⟩ : ∃ t', runAll (Entry.exec names) before t =
            some t' ∧ HoldsPath t' (render (stackOf before)) :=
          run_holds earlier fitsEarlier start atRoot
        have unchanged : entry.step.performed (stackOf before) = stackOf before := by
          rw [isParent]
          rfl
        have room := fitsEarlier before (List.prefix_refl _)
        rw [← unchanged] at room
        obtain ⟨final, stepped, held⟩ : ∃ t', entry.exec names middle = some t' ∧
            HoldsPath t' (render (entry.step.performed (stackOf before))) :=
          exec_effect (valid entry (by simp)) (stackOf_valid earlier) room holds
        rcases follows _ (List.prefix_refl _) with ⟨final', ran', text'⟩
        rw [runAll_concat, ran, Option.bind_some, stepped] at ran'
        obtain rfl := Option.some.inj ran'
        rw [stackOf_concat, isParent] at text'
        rw [unchanged] at held
        have same := Option.some.inj (text'.symm.trans held.held)
        exact render_dropLast_ne below same
      · exact atRoot before entry found earlierStep isParent

end Soundness

/-- The working directory.  After a root is mounted, it follows the stack of
names through a run of `cd` commands exactly when the run has no `cd ..` below
the root. -/
theorem path_follows_iff {id : List (BitVec 8)} (idFree : 0#8 ∉ id)
    {rest : Buffer} {device : Device} {block : Vector (BitVec 8) 512}
    {t0 : Terminal}
    (mounted : mountRoot names id rest device block t = some t0)
    {entries : List Entry} (valid : ∀ entry ∈ entries, entry.step.Valid)
    (fits : Fits entries) :
    PathFollows names t0 entries ↔ ParentAtRootOnly entries := by
  rcases mountRoot_holds idFree names rest device block t with ⟨root, mounted', start⟩
  obtain rfl := Option.some.inj (mounted'.symm.trans mounted)
  constructor
  · exact parentAtRootOnly_of_follows valid fits start
  · intro atRoot before isPrefix
    obtain ⟨t', ran, holds⟩ := run_holds
      (fun entry member => valid entry (isPrefix.subset member))
      (fun front inside => fits front (inside.trans isPrefix)) start
      (atRoot.before isPrefix)
    exact ⟨t', ran, holds.held⟩

end Runs

/-! ## A session -/

def sampleNames : Names where
  username := bytes "root"
  hostname := bytes "levex-levos"

def sampleDevice : Device := ⟨bytes "hd", 1, bytes "fat"⟩

def sampleBlock : Vector (BitVec 8) 512 := Vector.replicate 512 0x55#8

/-- The terminal before any root is mounted. -/
def unmounted : Terminal := ⟨false, [], 11, []⟩

/-- A line entered into a cleared buffer. -/
def entered (step : Step) : Entry :=
  ⟨step, List.replicate 200 0#8, none, false, sampleBlock⟩

def sampleName : List (BitVec 8) := bytes "a"

theorem sampleName_valid : ValidName sampleName := by
  constructor <;> decide

theorem digit_nulFree : 0#8 ∉ (bytes "1") := by decide

/-- The commands of a run that fits can be checked part by part. -/
theorem fits_of_inits {entries : List Entry}
    (each : ∀ before ∈ entries.inits, (render (stackOf before)).length + 1 ≤ 512) :
    Fits entries :=
  fun before isPrefix => each before ((List.mem_inits before entries).mpr isPrefix)

theorem path_follows_iff_one_directory :
    ∃ t0, mountRoot sampleNames (bytes "1") [] sampleDevice sampleBlock unmounted =
        some t0 ∧
      (PathFollows sampleNames t0 [entered (.enter sampleName true)] ↔
        ParentAtRootOnly [entered (.enter sampleName true)]) := by
  obtain ⟨t0, mounted, -⟩ := mountRoot_holds digit_nulFree sampleNames []
    sampleDevice sampleBlock unmounted
  have valid : ∀ entry ∈ [entered (.enter sampleName true)], entry.step.Valid := by
    simp [entered, Step.Valid, sampleName_valid]
  exact ⟨t0, mounted, path_follows_iff digit_nulFree mounted valid
    (fits_of_inits (by decide))⟩

/-- After `cd a` and `cd ..` the working directory is still that of `a`. -/
theorem parent_does_not_restore :
    ∃ t0, mountRoot sampleNames (bytes "1") [] sampleDevice sampleBlock unmounted =
        some t0 ∧
      ¬ PathFollows sampleNames t0
        [entered (.enter sampleName true), entered (.parent true)] := by
  obtain ⟨t0, mounted, start⟩ := mountRoot_holds digit_nulFree sampleNames []
    sampleDevice sampleBlock unmounted
  have valid : ∀ entry ∈ [entered (.enter sampleName true), entered (.parent true)],
      entry.step.Valid := by
    simp [entered, Step.Valid, sampleName_valid]
  refine ⟨t0, mounted, ?_⟩
  intro follows
  have atRoot := parentAtRootOnly_of_follows valid (fits_of_inits (by decide)) start
    follows
  have root := atRoot [entered (.enter sampleName true)] (entered (.parent true)) true
    (List.prefix_refl _) rfl
  cases root

end Os88.KernelTerminal
