/-
Module: Os88.Shell.Echo
Purpose: The commands of `shell` in include/shell.c, and when its `echo` prints
  its argument.
Trusted boundary: `append`, `malloc`, the screen and the machine services lie
  outside the repository; `append` appends a character to a string, `malloc`
  returns a block of any contents, and the other calls are recorded.
Main exports: ShellCommand, ShellCall, Services, Appends, findShellCommand, echo,
  shell, EchoPrints, echo_branch_iff, echoSteps_outcome, echoLoop_iff, echo_iff,
  echoPrints_iff
-/
import Os88.Library.Execution
import Os88.Shell.InputHandler

namespace Os88.Shell

open Execution
open StringLib

/-- The branches of `shell`. -/
inductive ShellCommand where
  | stop
  | page
  | clear
  | reboot
  | shutdown
  | cpuinfo
  | rtc
  | echo
  | help
  | ver
deriving DecidableEq, Repr

/-- The word that the input is compared with. -/
def ShellCommand.word : ShellCommand → List (BitVec 8)
  | .stop => bytes "end"
  | .page => bytes "page"
  | .clear => bytes "clear"
  | .reboot => bytes "reboot"
  | .shutdown => bytes "shutdown"
  | .cpuinfo => bytes "cpuinfo"
  | .rtc => bytes "rtc"
  | .echo => bytes "echo "
  | .help => bytes "help"
  | .ver => bytes "ver"

inductive ShellCall where
  | print (call : Call)
  | halt
  | clearScreen
  | reboot
  | acpiShutdown
  | cpudetect
  | rtctime
  | panic (message : List (BitVec 8))
deriving DecidableEq, Repr

/-- What `shell` uses from outside the repository: `append`, the block that
`malloc` returns, the result of `aligned_alloc`, and `globstatus`. -/
structure Services where
  append : Buffer → BitVec 8 → Option Buffer
  block : Vector (BitVec 8) 256
  page : BitVec 32
  globstatus : Int

/-- `append` writes the character in place of the terminator and a terminator
behind it; where these do not lie inside the block it writes outside. -/
structure Appends (append : Buffer → BitVec 8 → Option Buffer) : Prop where
  appended : ∀ {str : Buffer} {s : List (BitVec 8)} {c : BitVec 8}, text str = some s →
    s.length + 1 < str.length → append str c = some (s ++ c :: 0#8 :: str.drop (s.length + 2))
  outside : ∀ {str : Buffer} {c : BitVec 8},
    (∀ s, text str = some s → str.length ≤ s.length + 1) → append str c = none

variable (env : Services)

def kprint (message : List (BitVec 8)) : ShellCall := .print (.kprint message)

/-- The comparisons with whole words, in the order of the source. -/
def findWord (input : Buffer) : List ShellCommand → Option (Option ShellCommand)
  | [] => some none
  | command :: rest => do
      let res ← strcmp input (literal command.word)
      if res = 0#32 then return some command else findWord input rest

/-- The branch that `shell` takes, or `none` if it takes no branch. -/
def findShellCommand (input : Buffer) : Option (Option ShellCommand) := do
  match ← findWord input [.stop, .page, .clear, .reboot, .shutdown, .cpuinfo, .rtc] with
  | some command => return some command
  | none =>
      let res ← strncmp input (literal ShellCommand.echo.word) 4
      if res = 0 then return some .echo else findWord input [.help, .ver]

/-- The loop of `echo`. -/
def echoLoop (input : Buffer) (length : Nat) (sp : Buffer) : Option Buffer :=
  countLoop
    (fun i sp => do
      let ch ← input[i]?
      env.append sp ch)
    5 (length - 5) sp

/-- What `echo` prints of the copy. -/
def echoPrint (sp : Buffer) : Option (List ShellCall) := do
  let res ← strcmp sp (literal (bytes "\\?"))
  if res = 0#32 then
    return [.print (.printf "%i" [.int env.globstatus]), kprint (bytes "\n")]
  else
    let shown ← text sp
    return [kprint shown, kprint (bytes "\n")]

def echo (input : Buffer) : Option (List ShellCall) := do
  let length ← strlen input
  let sp ← echoLoop env input length env.block.toList
  echoPrint env sp

def helpText : String :=
  "Welcome to PawsOS, these are all the commands:\n" ++
  "\"end\": Halt the CPU.\n" ++
  "\"page\": Request a malloc().\n" ++
  "\"clear\": Clear the screen.\n" ++
  "\"cpuinfo\": Get information about your CPU.\n" ++
  "\"rtc\" Get the current time (in UTC).\n" ++
  "\"reboot\": Reboot your computer.\n" ++
  "\"echo [argument]\": Print something on the screen.\n" ++
  "\"shutdown\": Shutdown your computer.\n" ++
  "\"ver\": Show current version.\n" ++
  "Press Left shift to enable AZERTY keyboard layout.\n" ++
  "Press the Up key to print last used command.\n"

/-- The calls of a branch, the value it leaves in `dis_print`, and whether it
returns. -/
def runShellCommand (input : Buffer) (disPrint : Int) :
    Option ShellCommand → Option (List ShellCall × Int × Bool)
  | some .stop => some ([kprint (bytes "Stopping the CPU. Bye!\n"), .halt], disPrint, false)
  | some .page =>
      some ([.print (.printf "Page: 0x%lX\n" [.int env.page.toNat])], disPrint, true)
  | some .clear => some ([.clearScreen], 1, true)
  | some .reboot => some ([.reboot], disPrint, true)
  | some .shutdown => some ([.acpiShutdown], disPrint, true)
  | some .cpuinfo => some ([.cpudetect], disPrint, true)
  | some .rtc => some ([.rtctime], disPrint, true)
  | some .echo => (echo env input).map fun calls => (calls, disPrint, true)
  | some .help =>
      some ([kprint (bytes helpText)], disPrint, true)
  | some .ver => some ([kprint (bytes "PawsOS Version 0.04 (unreleased)\n")], disPrint, true)
  | none => some ([], disPrint, true)

/-- The end of `shell`: what it prints behind a command, and `dis_print`. -/
def finishShell (input : Buffer) (disPrint : Int) : Option (List ShellCall × Int) :=
  if disPrint = 0 then
    (text input).map fun shown =>
      ([.print (.printf "You said: %s\n> " [.string shown])], disPrint)
  else if disPrint = 1 then some ([kprint (bytes "> ")], 0)
  else if disPrint = 2 then some ([], 0)
  else some ([.panic (bytes "No valid value in \"dis_print\" variable.")], disPrint)

def shell (input : Buffer) (disPrint : Int) : Option (List ShellCall × Int) := do
  let command ← findShellCommand input
  let (calls, disPrint, returns) ← runShellCommand env input disPrint command
  if returns then
    let (finish, disPrint) ← finishShell input disPrint
    return (calls ++ finish, disPrint)
  else return (calls, disPrint)

/-- The inputs that start with "echo " take the branch, and it prints exactly the
text behind these five characters. -/
def EchoPrints (input : Buffer) (s : List (BitVec 8)) : Prop :=
  (findShellCommand input = some (some .echo) ↔ bytes "echo " <+: s) ∧
  ∀ rest, s = bytes "echo " ++ rest → rest ≠ bytes "\\?" → ∀ disPrint,
    ∃ finish disPrint', finishShell input disPrint = some (finish, disPrint') ∧
      shell env input disPrint =
        some ([kprint rest, kprint (bytes "\n")] ++ finish, disPrint')

/-! ## The branch -/

section Branch

variable {env} {input : Buffer} {s rest : List (BitVec 8)}

/-- The words other than that of `echo`. -/
def otherCommands : List ShellCommand :=
  [.stop, .page, .clear, .reboot, .shutdown, .cpuinfo, .rtc, .help, .ver]

theorem word_nulFree (command : ShellCommand) : 0#8 ∉ command.word := by
  cases command <;> decide

theorem findWord_none {commands : List ShellCommand} (held : text input = some s)
    (other : ∀ command ∈ commands, s ≠ command.word) : findWord input commands = some none := by
  induction commands with
  | nil => rfl
  | cons command commands inductionHypothesis =>
      have heldWord : text (literal command.word) = some command.word :=
        CString.text_append_nul (word_nulFree command) []
      rcases strcmp_of_text held heldWord with ⟨res, compared, zero⟩
      have differ : res ≠ 0#32 := mt zero.mp (other command (List.mem_cons_self ..))
      have later := inductionHypothesis fun next member =>
        other next (List.mem_cons_of_mem command member)
      simp [findWord, compared, differ, later]

/-- Four characters decide the branch. -/
theorem findShellCommand_of_text (held : text input = some s)
    (other : ∀ command ∈ otherCommands, s ≠ command.word) :
    findShellCommand input = some (if bytes "echo" <+: s then some .echo else none) := by
  have before : findWord input [.stop, .page, .clear, .reboot, .shutdown, .cpuinfo, .rtc] =
      some none :=
    findWord_none held fun command member =>
      other command (List.mem_of_mem_take (i := 7) member)
  have behind : findWord input [.help, .ver] = some none :=
    findWord_none held fun command member => other command (List.mem_of_mem_drop (i := 7) member)
  rcases strncmp_literal (n := 4) held (word_nulFree .echo) (by decide) with
    ⟨res, compared, zero⟩
  have taken : ShellCommand.echo.word.take 4 = bytes "echo" := by decide
  rw [taken] at zero
  by_cases starts : bytes "echo" <+: s
  · simp [findShellCommand, before, compared, zero.mpr starts, starts]
  · have differ : res ≠ 0 := mt zero.mp starts
    simp [findShellCommand, before, compared, differ, behind, starts]

theorem echo_branch_iff (held : text input = some s)
    (other : ∀ command ∈ otherCommands, s ≠ command.word) :
    findShellCommand input = some (some .echo) ↔ bytes "echo" <+: s := by
  rw [findShellCommand_of_text held other]
  by_cases starts : bytes "echo" <+: s <;> simp [starts]

end Branch

/-! ## The copy -/

section Copy

variable {env} {input sp : Buffer} {s t rest : List (BitVec 8)}

/-- One pass of the loop of `echo`. -/
def echoStep (env : Services) (input : Buffer) (i : Nat) (sp : Buffer) : Option Buffer := do
  let ch ← input[i]?
  env.append sp ch

theorem echoLoop_eq (env : Services) (input : Buffer) (length : Nat) (sp : Buffer) :
    echoLoop env input length sp = countLoop (echoStep env input) 5 (length - 5) sp := rfl

/-- Appending one character makes the string longer by it, if the block has
room. -/
theorem append_of_room {ch : BitVec 8} (appends : Appends env.append) (present : ch ≠ 0#8)
    (held : text sp = some t) (room : t.length + 1 < sp.length) :
    ∃ sp', env.append sp ch = some sp' ∧ sp'.length = sp.length ∧
      text sp' = some (t ++ [ch]) := by
  refine ⟨_, appends.appended held room, ?_, ?_⟩
  · simp only [List.length_append, List.length_cons, List.length_drop]
    omega
  · have nulFree := (CString.text_eq_some_iff.mp held).1
    have longer : 0#8 ∉ t ++ [ch] := by simp [nulFree, Ne.symm present]
    rw [List.append_cons]
    exact CString.text_append_nul longer _

/-- Characters appended one by one: the string grows by them while its block has
room, and otherwise a write leaves the block. -/
theorem echoSteps_outcome (appends : Appends env.append) (nulFree : 0#8 ∉ rest)
    (front after : List (BitVec 8)) (held : text sp = some t) :
    (t.length + rest.length < sp.length →
      ∃ sp', countLoop (echoStep env (front ++ rest ++ after)) front.length rest.length sp =
          some sp' ∧ text sp' = some (t ++ rest)) ∧
    (sp.length ≤ t.length + rest.length →
      countLoop (echoStep env (front ++ rest ++ after)) front.length rest.length sp =
        none) := by
  induction rest generalizing front sp t with
  | nil =>
      refine ⟨fun _ => ⟨sp, rfl, by simpa using held⟩, fun crowded => ?_⟩
      have room := CString.length_lt_of_text held
      simp only [List.length_nil] at crowded
      omega
  | cons ch rest inductionHypothesis =>
      have present : ch ≠ 0#8 := fun zero => nulFree (by simp [zero])
      have absent : 0#8 ∉ rest := List.not_mem_of_not_mem_cons nulFree
      have once : echoStep env (front ++ (ch :: rest) ++ after) front.length sp =
          env.append sp ch := by
        simp [echoStep]
      simp only [List.length_cons, countLoop, once]
      by_cases room : t.length + 1 < sp.length
      · rcases append_of_room appends present held room with ⟨sp', ran, length, held'⟩
        have tail := inductionHypothesis absent (front ++ [ch]) held'
        simp only [List.length_append, List.length_singleton, List.append_assoc,
          List.singleton_append, length] at tail
        rw [ran, Option.bind_some]
        refine ⟨fun fits => ?_, fun crowded => ?_⟩
        · simpa using tail.1 (by omega)
        · simpa using tail.2 (by omega)
      · have refused : env.append sp ch = none := by
          apply appends.outside
          intro s heldAgain
          obtain rfl := Option.some.inj (held.symm.trans heldAgain)
          omega
        rw [refused]
        exact ⟨fun fits => by omega, fun _ => rfl⟩

/-- A block without a terminator is not made a string: the first character is written
outside, and without characters nothing is written. -/
theorem echoSteps_unterminated (appends : Appends env.append) {front after block : Buffer}
    (unterminated : text block = none)
    (ran : countLoop (echoStep env (front ++ rest ++ after)) front.length rest.length block =
      some sp) : text sp ≠ some rest := by
  cases rest with
  | nil =>
      obtain rfl : block = sp := Option.some.inj ran
      rw [unterminated]
      exact fun impossible => by cases impossible
  | cons ch rest =>
      have refused : env.append block ch = none := by
        apply appends.outside
        intro s held
        rw [unterminated] at held
        cases held
      have once : echoStep env (front ++ ch :: rest ++ after) front.length block = none := by
        simp [echoStep, refused]
      rw [List.length_cons, countLoop, once] at ran
      cases ran

/-- The block holds the argument after the loop exactly when it started as the empty
string and has room. -/
theorem echoLoop_iff (appends : Appends env.append)
    (held : text input = some (bytes "echo " ++ rest)) (block : Buffer) :
    (∃ sp, echoLoop env input (bytes "echo " ++ rest).length block = some sp ∧
        text sp = some rest) ↔ text block = some [] ∧ rest.length < block.length := by
  rcases CString.text_eq_some_iff.mp held with ⟨nulFree, after, rfl⟩
  have absent : 0#8 ∉ rest := fun member => nulFree (List.mem_append_right _ member)
  have count : (bytes "echo " ++ rest).length - 5 = rest.length := by simp [bytes]
  have start : (bytes "echo ").length = 5 := by decide
  rw [echoLoop_eq, count, ← start]
  constructor
  · rintro ⟨sp, ran, heldSp⟩
    cases heldBlock : text block with
    | none => exact absurd heldSp (echoSteps_unterminated appends heldBlock ran)
    | some t =>
        have outcome := echoSteps_outcome appends absent (bytes "echo ") (0#8 :: after) heldBlock
        by_cases fits : t.length + rest.length < block.length
        · rcases outcome.1 fits with ⟨sp', ran', heldSp'⟩
          obtain rfl : sp = sp' := Option.some.inj (ran.symm.trans ran')
          have same : t ++ rest = rest := Option.some.inj (heldSp'.symm.trans heldSp)
          obtain rfl : t = [] := List.append_left_eq_self.mp same
          exact ⟨rfl, by simpa using fits⟩
        · rw [outcome.2 (by omega)] at ran
          cases ran
  · rintro ⟨heldBlock, room⟩
    have outcome := echoSteps_outcome appends absent (bytes "echo ") (0#8 :: after) heldBlock
    exact outcome.1 (by simpa using room)

theorem echoPrint_of_text (held : text sp = some rest) (plain : rest ≠ bytes "\\?") :
    echoPrint env sp = some [kprint rest, kprint (bytes "\n")] := by
  have heldOption : text (literal (bytes "\\?")) = some (bytes "\\?") := by decide
  rcases strcmp_of_text held heldOption with ⟨res, compared, zero⟩
  have differ : res ≠ 0#32 := mt zero.mp plain
  simp [echoPrint, compared, differ, held]

theorem text_of_echoPrint
    (printed : echoPrint env sp = some [kprint rest, kprint (bytes "\n")]) :
    text sp = some rest := by
  rcases Option.bind_eq_some_iff.mp printed with ⟨res, -, shows⟩
  split_ifs at shows
  · simp [kprint] at shows
  · rcases Option.bind_eq_some_iff.mp shows with ⟨shown, held, same⟩
    simp only [Option.pure_def, Option.some.injEq, List.cons.injEq, kprint, ShellCall.print.injEq,
      Call.kprint.injEq, and_true] at same
    rw [held, same]

/-- `echo` prints exactly its argument in the same case. -/
theorem echo_iff (appends : Appends env.append)
    (held : text input = some (bytes "echo " ++ rest)) (plain : rest ≠ bytes "\\?") :
    echo env input = some [kprint rest, kprint (bytes "\n")] ↔
      text env.block.toList = some [] ∧ rest.length < 256 := by
  have loop := echoLoop_iff appends held env.block.toList
  rw [Vector.length_toList] at loop
  rw [← loop, echo, strlen_of_text held]
  simp only [Option.bind_eq_bind, Option.bind_some]
  constructor
  · intro printed
    rcases Option.bind_eq_some_iff.mp printed with ⟨sp, ran, shows⟩
    exact ⟨sp, ran, text_of_echoPrint shows⟩
  · rintro ⟨sp, ran, heldSp⟩
    rw [ran, Option.bind_some, echoPrint_of_text heldSp plain]

end Copy

/-! ## The command -/

section Command

variable {env} {input : Buffer} {s : List (BitVec 8)}

theorem finishShell_total (held : text input = some s) (disPrint : Int) :
    ∃ finish disPrint', finishShell input disPrint = some (finish, disPrint') := by
  unfold finishShell
  split_ifs
  · rw [held]
    exact ⟨_, _, rfl⟩
  · exact ⟨_, _, rfl⟩
  · exact ⟨_, _, rfl⟩
  · exact ⟨_, _, rfl⟩

theorem text_eq_nil_iff (buffer : Buffer) :
    text buffer = some [] ↔ buffer[0]? = some 0#8 := by
  cases buffer with
  | nil => simp [text, CString.text]
  | cons ch rest =>
      by_cases ended : ch = 0#8
      · simp [ended, text]
      · rw [text, CString.text_cons ended]
        simp [ended]

/-- What `shell` prints for an `echo`. -/
theorem shell_echo (taken : findShellCommand input = some (some .echo)) (disPrint : Int) :
    shell env input disPrint = do
      let calls ← echo env input
      let (finish, disPrint) ← finishShell input disPrint
      return (calls ++ finish, disPrint) := by
  simp only [shell, taken, Option.bind_eq_bind, Option.bind_some, runShellCommand]
  cases echo env input <;> rfl

/-- `echo` prints its argument exactly when the input does not only start with
"echo", and, unless the argument is the option, the block starts with a terminator and
the argument has at most 255 characters. -/
theorem echoPrints_iff (appends : Appends env.append) (held : text input = some s)
    (other : ∀ command ∈ otherCommands, s ≠ command.word) :
    EchoPrints env input s ↔
      (bytes "echo" <+: s → bytes "echo " <+: s) ∧
        ∀ rest, s = bytes "echo " ++ rest → rest ≠ bytes "\\?" →
          env.block[0] = 0#8 ∧ rest.length ≤ 255 := by
  have shorter : bytes "echo " <+: s → bytes "echo" <+: s :=
    fun starts => List.IsPrefix.trans (by decide) starts
  have branch := echo_branch_iff held other
  have empty : text env.block.toList = some [] ↔ env.block[0] = 0#8 := by
    rw [text_eq_nil_iff, Vector.getElem?_toList, Vector.getElem?_eq_getElem (by decide),
      Option.some.injEq]
  rw [EchoPrints, branch]
  refine and_congr ⟨fun both => both.mp, fun whole => ⟨whole, shorter⟩⟩ ?_
  refine forall_congr' fun rest => forall_congr' fun starts => forall_congr' fun plain => ?_
  subst starts
  have taken := branch.mpr (shorter (List.prefix_append _ _))
  rw [← empty, ← Nat.lt_succ_iff, ← echo_iff appends held plain]
  constructor
  · intro printed
    rcases printed 0 with ⟨finish, disPrint', finished, ran⟩
    rw [shell_echo taken] at ran
    rcases Option.bind_eq_some_iff.mp ran with ⟨calls, echoed, tail⟩
    rw [finished] at tail
    have same : calls ++ finish = [kprint rest, kprint (bytes "\n")] ++ finish :=
      (Prod.mk.inj (Option.some.inj tail)).1
    rw [echoed, List.append_cancel_right same]
  · intro echoed disPrint
    rcases finishShell_total held disPrint with ⟨finish, disPrint', finished⟩
    refine ⟨finish, disPrint', finished, ?_⟩
    rw [shell_echo taken, echoed, finished]
    rfl

end Command

/-- A function that appends as `append` is taken to. -/
def appendAtEnd (str : Buffer) (c : BitVec 8) : Option Buffer :=
  (text str).bind fun s =>
    if s.length + 1 < str.length then some (s ++ c :: 0#8 :: str.drop (s.length + 2)) else none

theorem appends_appendAtEnd : Appends appendAtEnd := by
  constructor
  · intro str s c held room
    rw [appendAtEnd, held, Option.bind_some, if_pos room]
  · intro str c crowded
    cases held : text str with
    | none => rw [appendAtEnd, held, Option.bind_none]
    | some s =>
        have full := crowded s held
        rw [appendAtEnd, held, Option.bind_some, if_neg (by omega)]

/-- A machine on which `malloc` returns cleared blocks. -/
def clearedHeap : Services := ⟨appendAtEnd, Vector.replicate 256 0#8, 0#32, 0⟩

/-- "echoes" takes the branch of `echo`. -/
theorem echoes_taken :
    text (literal (bytes "echoes")) = some (bytes "echoes") ∧
      (∀ command ∈ otherCommands, bytes "echoes" ≠ command.word) ∧
      ¬ EchoPrints clearedHeap (literal (bytes "echoes")) (bytes "echoes") := by
  have held : text (literal (bytes "echoes")) = some (bytes "echoes") := by decide
  have other : ∀ command ∈ otherCommands, bytes "echoes" ≠ command.word := by decide
  refine ⟨held, other, fun prints => ?_⟩
  have branch := prints.1
  rw [echo_branch_iff held other] at branch
  exact absurd (branch.mp (by decide)) (by decide)

/-- "echo hi" on a cleared heap. -/
theorem echoPrints_iff_cleared :
    Appends clearedHeap.append ∧ text (literal (bytes "echo hi")) = some (bytes "echo hi") ∧
      (∀ command ∈ otherCommands, bytes "echo hi" ≠ command.word) ∧
      EchoPrints clearedHeap (literal (bytes "echo hi")) (bytes "echo hi") := by
  have held : text (literal (bytes "echo hi")) = some (bytes "echo hi") := by decide
  have other : ∀ command ∈ otherCommands, bytes "echo hi" ≠ command.word := by decide
  refine ⟨appends_appendAtEnd, held, other,
    (echoPrints_iff appends_appendAtEnd held other).mpr ⟨fun _ => by decide, ?_⟩⟩
  intro rest starts plain
  have length := congrArg List.length starts
  have whole : (bytes "echo hi").length = 7 := by decide
  have word : (bytes "echo ").length = 5 := by decide
  rw [List.length_append, whole, word] at length
  exact ⟨rfl, by omega⟩

end Os88.Shell
