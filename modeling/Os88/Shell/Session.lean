/-
Module: Os88.Shell.Session
Purpose: Whole sessions with the shell, against a shell that has no line buffer
  and no argument vector and answers a line at a time.
Trusted boundary: the terminal functions, `itoa`, `atoi` and `make_color_s` lie
  outside the repository; a call of the terminal is recorded.
Main exports: Repl, replLine, typed, keysOf, readLine_refines, session_refines
-/
import Os88.Shell.ArgumentVector
import Os88.Shell.LineEditor

namespace Os88.Shell

open Execution
open StringLib

/-! ## The shell without its buffers -/

/-- What a session shows: whether it still runs, and the calls of the terminal. -/
structure Repl where
  running : Bool
  terminal : List TerminalCall
deriving DecidableEq, Repr

def Command.all : List Command := [.test, .help, .color, .clear, .exit, .empty]

/-- The command that a first word names. -/
def commandOf (token : Token) : Option Command :=
  Command.all.find? fun command => command.word = token

/-- A `getchar` that returned NUL read no key. -/
def typed (line : List (BitVec 8)) : List (BitVec 8) := line.filter (· ≠ 0#8)

/-- The keys of some lines, each ended by Enter. -/
def keysOf (lines : List (List (BitVec 8))) : List (BitVec 8) :=
  lines.flatMap (· ++ [0x0A#8])

/-- The calls that show keys behind a text: a backspace is shown only when there is
a character to take back. -/
def echoCalls : List (BitVec 8) → List (BitVec 8) → List TerminalCall
  | _, [] => []
  | shown, c :: keys =>
      if c = 0x08#8 ∧ shown = [] then echoCalls shown keys
      else .putchar c :: echoCalls (edit shown c) keys

/-- The words of an edited line. -/
def wordsOf (shown : List (BitVec 8)) : List Token := tokensOf (shown ++ [0x0A#8])

section Answers

variable (env : Surroundings)

/-- What a command prints on a line whose first word is `word` and that has `count`
words.  `test` prints what lies at the address that its own name spells, and `color`
reads its numbers at addresses made from its last letter and the stack: the other
words do not matter. -/
def answer (terminal : List TerminalCall) (word : Token) (count : Nat)
    (found : Option Command) : List TerminalCall :=
  let stack := env.stack terminal
  match found with
  | some .test =>
      [.writestring (bytes "Test message!\n"), .writestringAt (lettersAt (bytes "test")),
        .putchar 0x0A#8]
  | some .help =>
      [.writestring (bytes "Syntax: help <prikaz>\n"),
        .writestring (bytes "clear -> Vycisti obrazovku\n")]
  | some .color =>
      if count = 3 then
        let fg := env.atoi terminal (stack.get 7 ++ stack.get 6 ++ 0#8 ++ 0x72#8)
        let bg := env.atoi terminal (stack.get 11 ++ stack.get 10 ++ stack.get 9 ++ stack.get 8)
        [.setcolor (env.makeColorS (fg.setWidth 8) (bg.setWidth 8))]
      else
        [.writestring (bytes "Zadal si nepravny pocet argumentov: "),
          .writestring (env.itoa (count - 1)), .putchar 0x0A#8]
  | some .clear => [.clearscreen]
  | some .exit => [.writestring (bytes "[+]Exiting...")]
  | some .empty => []
  | none => [.writestring word, .writestring (bytes ": Prikaz nebol najdeny\n")]

def prompt : TerminalCall := .writestring (bytes "mato:myos/$ ")

/-- A line and its answer.  A line of too many or too long words is a fault, and so
is a line after `exit`. -/
def replLine (line : List (BitVec 8)) (repl : Repl) : Option Repl :=
  if repl.running ∧ Fits (wordsOf (edited (typed line))) then
    let words := wordsOf (edited (typed line))
    let word := words.headD []
    let entered := repl.terminal ++ echoCalls [] (typed line) ++ [.putchar 0x0A#8]
    let answered :=
      entered ++ answer env entered word words.length (commandOf word) ++ [prompt]
    some (if commandOf word = some .exit then ⟨false, answered ++ [.clearscreen]⟩
      else ⟨true, answered⟩)
  else none

end Answers

/-- What is seen of the shell. -/
def State.observe {N : Nat} (s : State N) : Repl := ⟨s.running, s.terminal⟩

variable {N : Nat} {env : Surroundings} {s s' : State N}

/-! ## Typing a line -/

section Typing

variable {c : BitVec 8} {shown keys : List (BitVec 8)}

/-- The state of a line while it is typed. -/
structure Typing (shown : List (BitVec 8)) (terminal : List TerminalCall) (s : State N) :
    Prop where
  running : s.running = true
  contents : s.contents = shown
  terminal : s.terminal = terminal
  nulFree : 0#8 ∉ shown

theorem running_shellBufferpush (c : BitVec 8) (s : State N) :
    (shellBufferpush c s).running = s.running := by
  unfold shellBufferpush
  split <;> rfl

theorem running_shellBufferpop (s : State N) : (shellBufferpop s).2.running = s.running := by
  unfold shellBufferpop
  split <;> rfl

/-- A key other than Enter does to the state of a running shell what `typeKey` does. -/
theorem readKey_typing (present : c ≠ 0#8) (other : c ≠ 0x0A#8) (running : s.running = true)
    (stays : (typeKey c s).running = true) : readKey env c s = some (typeKey c s) := by
  rw [readKey, if_pos running, keyPass, if_pos present, if_neg other, Option.map_some,
    if_pos stays]

theorem readKey_nul (running : s.running = true) : readKey env 0#8 s = some s := by
  rw [readKey, if_pos running, keyPass, if_neg (by simp), Option.map_some, if_pos running]

theorem typing_character {terminal : List TerminalCall} (small : N < 2 ^ 16)
    (character : c ≠ 0x08#8) (present : c ≠ 0#8) (other : c ≠ 0x0A#8)
    (room : shown.length < N) (typing : Typing shown terminal s) :
    ∃ s', readKey env c s = some s' ∧
      Typing (shown ++ [c]) (terminal ++ [.putchar c]) s' := by
  have run : (typeKey c s).running = true := by
    rw [typeKey_character character]
    exact (running_shellBufferpush c s).trans typing.running
  refine ⟨_, readKey_typing present other typing.running run, run, ?_, ?_, ?_⟩
  · rw [contents_character small character, typing.contents, if_pos room]
  · rw [typeKey_character character, terminal_call, terminal_shellBufferpush, typing.terminal]
  · simp [typing.nulFree, Ne.symm present]

theorem typing_backspace {terminal : List TerminalCall} (typing : Typing shown terminal s) :
    ∃ s', readKey env 0x08#8 s = some s' ∧
      Typing shown.dropLast
        (terminal ++ if shown = [] then [] else [.putchar 0x08#8]) s' := by
  rcases shellBufferpop_spec s with ⟨empty, popped⟩ | ⟨before, c, whole, popped, left⟩
  · have nothing : shown = [] := typing.contents.symm.trans empty
    have unchanged : typeKey 0x08#8 s = s := by simp [typeKey, popped]
    have run : (typeKey 0x08#8 s).running = true := by rw [unchanged, typing.running]
    refine ⟨_, readKey_typing (by decide) (by decide) typing.running run, ?_⟩
    rw [unchanged, nothing, if_pos rfl, List.append_nil]
    rw [nothing] at typing
    exact typing
  · have text : shown = before ++ [c] := typing.contents.symm.trans whole
    have present : c ≠ 0#8 := fun zero => typing.nulFree (by simp [text, zero])
    have taken : typeKey 0x08#8 s = (shellBufferpop s).2.call (.putchar 0x08#8) := by
      simp [typeKey, popped, present]
    have run : (typeKey 0x08#8 s).running = true := by
      rw [taken]
      exact (running_shellBufferpop s).trans typing.running
    refine ⟨_, readKey_typing (by decide) (by decide) typing.running run, run, ?_, ?_, ?_⟩
    · rw [taken, contents_call, left, text, List.dropLast_concat]
    · rw [taken, terminal_call, terminal_shellBufferpop, typing.terminal,
        if_neg (by simp [text])]
    · exact fun member => typing.nulFree (List.mem_of_mem_dropLast member)

/-- The keys of a line, one after the other. -/
theorem typing_keys {terminal : List TerminalCall} (small : N < 2 ^ 16)
    (noEnter : 0x0A#8 ∉ keys) (typing : Typing shown terminal s)
    (fits : ∀ before, before <+: typed keys → (before.foldl edit shown).length ≤ N) :
    ∃ s', runAll (readKey env) keys s = some s' ∧
      Typing ((typed keys).foldl edit shown) (terminal ++ echoCalls shown (typed keys)) s' := by
  induction keys generalizing shown terminal s with
  | nil => exact ⟨s, rfl, by simpa [typed, echoCalls] using typing⟩
  | cons c keys inductionHypothesis =>
      have others : 0x0A#8 ∉ keys := fun member => noEnter (List.mem_cons_of_mem c member)
      have other : c ≠ 0x0A#8 := fun enter => noEnter (by simp [enter])
      by_cases present : c = 0#8
      · subst present
        have skipped : typed (0#8 :: keys) = typed keys := by simp [typed]
        rw [skipped] at fits ⊢
        rw [runAll_cons, readKey_nul typing.running, Option.bind_some]
        exact inductionHypothesis others typing fits
      · have first : typed (c :: keys) = c :: typed keys := by simp [typed, present]
        rw [first] at fits ⊢
        have later : ∀ before, before <+: typed keys →
            (before.foldl edit (edit shown c)).length ≤ N := by
          intro before isPrefix
          exact fits (c :: before) ((List.prefix_cons_inj c).mpr isPrefix)
        have step : ∃ middle, readKey env c s = some middle ∧
            Typing (edit shown c)
              (terminal ++ if c = 0x08#8 ∧ shown = [] then [] else [.putchar c]) middle := by
          by_cases backspace : c = 0x08#8
          · subst backspace
            simpa only [edit_backspace, true_and] using typing_backspace typing
          · have length := fits [c] ((List.prefix_cons_inj c).mpr (List.nil_prefix))
            rw [List.foldl_cons, List.foldl_nil, edit_character backspace, List.length_append,
              List.length_singleton] at length
            rw [edit_character backspace, if_neg fun both => backspace both.1]
            exact typing_character small backspace present other (by omega) typing
        rcases step with ⟨middle, ran, kept⟩
        rcases inductionHypothesis others kept later with ⟨final, rest, reached⟩
        refine ⟨final, by rw [runAll_cons, ran, Option.bind_some, rest], ?_⟩
        rw [List.foldl_cons, echoCalls]
        by_cases silent : c = 0x08#8 ∧ shown = []
        · rcases silent with ⟨rfl, rfl⟩
          simpa [edit_backspace] using reached
        · simpa [silent] using reached

end Typing

/-! ## The command of a line -/

section Commands

variable {words : List Token} {word : Token} {command : Buffer} {shown : List (BitVec 8)}

theorem findCommand_of_text {token : Buffer} (held : text token = some word)
    (commands : List Command) :
    findCommand token commands = some (commands.find? fun command => command.word = word) := by
  induction commands with
  | nil => rfl
  | cons command commands inductionHypothesis =>
      have heldWord : text (literal command.word) = some command.word :=
        CString.text_append_nul (by cases command <;> decide) []
      rcases strcmp_of_text held heldWord with ⟨res, compared, zero⟩
      by_cases same : command.word = word
      · rw [findCommand, compared, List.find?_cons_of_pos (by simpa using same)]
        simp [zero.mpr same.symm]
      · have differ : res ≠ 0#32 := fun equal => same (zero.mp equal).symm
        simp [findCommand, compared, differ, inductionHypothesis, same]

theorem word_of_commandOf {found : Command} (named : commandOf word = some found) :
    word = found.word := by
  have same : found.word = word := by simpa using List.find?_some named
  exact same.symm

/-- The two pointers that `color` loads. -/
theorem argvPointer_color (first : words[0]? = some (bytes "color")) (stack : Argv) :
    argvPointer (storeTokens words stack) 1 = stack.get 7 ++ stack.get 6 ++ 0#8 ++ 0x72#8 ∧
      argvPointer (storeTokens words stack) 2 =
        stack.get 11 ++ stack.get 10 ++ stack.get 9 ++ stack.get 8 := by
  have row : ∀ i, i < 32 → cell words i = (bytes "color" ++ [0#8])[i]? := by
    intro i inside
    rw [cell, show i / 32 = 0 by omega, first, show i % 32 = i by omega]
    rfl
  have letters : bytes "color" ++ [0#8] = [0x63#8, 0x6F#8, 0x6C#8, 0x6F#8, 0x72#8, 0#8] := by
    decide
  constructor
  · simp [argvPointer, getElem_storeTokens, row, letters]
    rfl
  · simp [argvPointer, getElem_storeTokens, row, letters]
    rfl

/-- A command prints its answer, and only `exit` ends the shell. -/
theorem runCommand_outcome (first : words[0]? = some word)
    (held : text (storeTokens words (env.stack s.terminal)).toList = some word) :
    ∃ s', runCommand env (commandOf word) ((words.length : Int) - 1)
        (storeTokens words (env.stack s.terminal)) s = some s' ∧
      s'.terminal = s.terminal ++ answer env s.terminal word words.length (commandOf word) ∧
      s'.running = (s.running && decide (commandOf word ≠ some .exit)) := by
  cases named : commandOf word with
  | none =>
      refine ⟨_, by rw [runCommand, held]; rfl, ?_, by simp [State.writestring, State.call]⟩
      simp [answer, State.writestring]
  | some found =>
      have spelled := word_of_commandOf named
      cases found with
      | test =>
          subst spelled
          have pointer := argvPointer_first first (by decide) (env.stack s.terminal)
          refine ⟨_, rfl, ?_, by simp [shellCommandTest, State.writestring, State.call]⟩
          simp [answer, shellCommandTest, State.writestring, pointer, Command.word]
      | help =>
          refine ⟨_, rfl, ?_, by simp [shellCommandHelp, State.writestring, State.call]⟩
          simp [answer, shellCommandHelp, State.writestring]
      | color =>
          subst spelled
          rcases argvPointer_color first (env.stack s.terminal) with ⟨second, third⟩
          have count : (words.length : Int) - 1 = 2 ↔ words.length = 3 := by omega
          refine ⟨_, rfl, ?_, ?_⟩
          · simp only [answer, shellCommandColor, count]
            split <;> simp [State.writestring, second, third]
          · simp only [shellCommandColor]
            split <;> simp [State.writestring, State.call]
      | clear =>
          refine ⟨_, rfl, ?_, by simp [shellCommandClear, shellBufferclear, State.call]⟩
          simp [answer, shellCommandClear, shellBufferclear]
      | exit =>
          refine ⟨_, rfl, ?_, by simp [shellCommandExit, State.writestring, State.call]⟩
          simp [answer, shellCommandExit, State.writestring]
      | empty =>
          exact ⟨s, rfl, by simp [answer], by simp⟩

/-- The interpreter on a line: the answer and the next prompt. -/
theorem shellInterpreter_outcome (held : text command = some (shown ++ [0x0A#8])) :
    if Fits (wordsOf shown) then
      ∃ s', shellInterpreter env command s = some (shellClear s') ∧
        s'.terminal = s.terminal ++ answer env s.terminal ((wordsOf shown).headD [])
          (wordsOf shown).length (commandOf ((wordsOf shown).headD [])) ∧
        s'.running =
          (s.running && decide (commandOf ((wordsOf shown).headD []) ≠ some .exit))
    else shellInterpreter env command s = none := by
  have tokens : tokensOf (shown ++ [0x0A#8]) = wordsOf shown := rfl
  have nulFree := (CString.text_eq_some_iff.mp held).1
  by_cases fits : Fits (wordsOf shown)
  · have some_word : 0 < (wordsOf shown).length := by
      rw [wordsOf, length_tokensOf, List.countP_append]
      exact Nat.lt_add_left _ (by decide)
    have first := List.getElem?_eq_getElem some_word
    have member : (wordsOf shown)[0] ∈ wordsOf shown := List.getElem_mem some_word
    have head : (wordsOf shown).headD [] = (wordsOf shown)[0] := by
      simp [List.head?_eq_getElem?, first]
    have row : text (storeTokens (wordsOf shown) (env.stack s.terminal)).toList =
        some (wordsOf shown)[0] := by
      have stored := text_row (by decide) first (fits.2 _ member)
        (nulFree_of_mem_tokensOf nulFree member) (env.stack s.terminal)
      rwa [Nat.mul_zero, List.drop_zero] at stored
    rcases runCommand_outcome first row with ⟨s', ran, printed, running⟩
    rw [if_pos fits, head]
    refine ⟨s', ?_, printed, running⟩
    rw [shellInterpreter, tokenLoop_of_fits held fits]
    simp only [Option.bind_eq_bind, Option.bind_some, tokens]
    rw [findCommand_of_text row, Option.bind_some]
    show (runCommand env (commandOf (wordsOf shown)[0]) _ _ s).bind _ = _
    rw [ran]
    rfl
  · rw [if_neg fits, shellInterpreter, tokenLoop_of_text held, tokens, if_neg fits]
    rfl

end Commands

/-! ## Sessions -/

section Sessions

variable {shown line : List (BitVec 8)}

/-- Enter behind a line with room for the newline and the terminator. -/
theorem readKey_enter {terminal : List TerminalCall} (small : N < 2 ^ 16)
    (room : shown.length + 2 ≤ N) (typing : Typing shown terminal s) :
    let word := (wordsOf shown).headD []
    let entered := terminal ++ [.putchar 0x0A#8]
    let answered :=
      entered ++ answer env entered word (wordsOf shown).length (commandOf word) ++ [prompt]
    if Fits (wordsOf shown) then
      ∃ s', readKey env 0x0A#8 s = some s' ∧ s'.contents = [] ∧
        s'.observe =
          if commandOf word = some .exit then ⟨false, answered ++ [.clearscreen]⟩
          else ⟨true, answered⟩
    else readKey env 0x0A#8 s = none := by
  intro word entered answered
  have newline : (0x0A#8 : BitVec 8) ≠ 0x08#8 := by decide
  have contents := contents_character small newline s
  rw [typing.contents, if_pos (by omega)] at contents
  have nulFree : 0#8 ∉ (typeKey 0x0A#8 s).contents := by
    rw [contents]
    simp [typing.nulFree]
  have held := text_shellBufferread small nulFree
  rw [contents, if_pos (by rwa [List.length_append, List.length_singleton])] at held
  have shows : (shellBufferread (typeKey 0x0A#8 s)).2.terminal = entered := by
    show (shellBufferpush 0#8 (typeKey 0x0A#8 s)).terminal = entered
    rw [terminal_shellBufferpush, typeKey_character newline, terminal_call,
      terminal_shellBufferpush, typing.terminal]
  have runs : (shellBufferread (typeKey 0x0A#8 s)).2.running = true := by
    show (shellBufferpush 0#8 (typeKey 0x0A#8 s)).running = true
    rw [running_shellBufferpush, typeKey_character newline]
    exact (running_shellBufferpush _ s).trans typing.running
  have pass : keyPass env 0x0A#8 s = shellInterpreter env
      (shellBufferread (typeKey 0x0A#8 s)).1 (shellBufferread (typeKey 0x0A#8 s)).2 := by
    rw [keyPass, if_pos (by decide), if_pos rfl]
  have outcome := @shellInterpreter_outcome _ env (shellBufferread (typeKey 0x0A#8 s)).2 _ _ held
  rw [shows, runs, ← pass] at outcome
  rw [readKey, if_pos typing.running]
  by_cases fits : Fits (wordsOf shown)
  · rw [if_pos fits] at outcome ⊢
    rcases outcome with ⟨s', ran, printed, running⟩
    rw [ran, Option.map_some]
    have cleared : (shellClear s').terminal = answered := by
      show s'.terminal ++ [prompt] = answered
      rw [printed]
    have same : (shellClear s').running = s'.running := rfl
    rw [Bool.true_and] at running
    by_cases ended : commandOf word = some .exit
    · have stopped : s'.running = false := by
        rw [running]
        exact decide_eq_false fun differs => differs ended
      refine ⟨_, rfl, ?_, ?_⟩
      · rw [same, stopped, if_neg (by decide)]
        exact contents_shellBufferclear _
      · rw [same, stopped, if_neg (by decide), if_pos ended, ← cleared]
        exact congrArg (Repl.mk · _) stopped
    · have goesOn : s'.running = true := by
        rw [running]
        exact decide_eq_true ended
      refine ⟨_, rfl, ?_, ?_⟩
      · rw [same, goesOn, if_pos rfl]
        exact contents_shellBufferclear _
      · rw [same, goesOn, if_pos rfl, if_neg ended, ← cleared]
        exact congrArg (Repl.mk · _) goesOn
  · rw [if_neg fits] at outcome ⊢
    rw [outcome]
    rfl

/-- A line and its Enter are one line of the shell without buffers. -/
theorem readLine_refines (small : N < 2 ^ 16) (noEnter : 0x0A#8 ∉ line)
    (fits : LineFits N (typed line)) (empty : s.contents = []) :
    (runAll (readKey env) (line ++ [0x0A#8]) s).map State.observe =
        replLine env line s.observe ∧
      ∀ s', runAll (readKey env) (line ++ [0x0A#8]) s = some s' → s'.contents = [] := by
  by_cases running : s.running = true
  · have start : Typing [] s.terminal s := ⟨running, empty, rfl, by simp⟩
    rcases typing_keys small noEnter start fits.1 with ⟨middle, ran, typing⟩
    have enter := @readKey_enter _ env _ _ _ small fits.2 typing
    rw [runAll_concat, ran, Option.bind_some, replLine]
    by_cases stored : Fits (wordsOf (edited (typed line)))
    · have both : s.observe.running = true ∧ Fits (wordsOf (edited (typed line))) :=
        ⟨running, stored⟩
      rw [if_pos stored] at enter
      rcases enter with ⟨s', answered, cleared, observed⟩
      rw [answered, Option.map_some, observed, if_pos both]
      refine ⟨rfl, fun final reached => ?_⟩
      rw [← Option.some.inj reached]
      exact cleared
    · have refused : ¬ (s.observe.running = true ∧ Fits (wordsOf (edited (typed line)))) :=
        fun both => stored both.2
      rw [if_neg stored] at enter
      rw [enter, if_neg refused]
      exact ⟨rfl, fun _ impossible => by cases impossible⟩
  · have ended : runAll (readKey env) (line ++ [0x0A#8]) s = none := by
      cases line with
      | nil => simp [runAll, readKey, running]
      | cons c line => simp [runAll, readKey, running]
    have refused : ¬ (s.observe.running = true ∧ Fits (wordsOf (edited (typed line)))) :=
      fun both => running both.1
    rw [ended, replLine, if_neg refused]
    exact ⟨rfl, fun _ impossible => by cases impossible⟩

/-- Whatever is typed, line by line, the shell shows what a shell shows that keeps no
buffer and no argument vector: the keys, the answer to the words of the edited line and
the next prompt, up to `exit`. -/
theorem session_refines (small : N < 2 ^ 16) (s₀ : State N) (lines : List (List (BitVec 8)))
    (noEnter : ∀ line ∈ lines, 0x0A#8 ∉ line)
    (fits : ∀ line ∈ lines, LineFits N (typed line)) :
    (runAll (readKey env) (keysOf lines) (initializeShell s₀)).map State.observe =
      runAll (replLine env) lines (initializeShell s₀).observe := by
  rw [keysOf, runAll_flatMap]
  refine runAll_refines (fun s => s.contents = []) State.observe (contents_shellBufferclear _) ?_
  intro line member s empty
  exact readLine_refines small (noEnter line member) (fits line member) empty

end Sessions

/-- A mistyped line, a silent backspace and a NUL in front of `exit`. -/
def twoLines : List (List (BitVec 8)) :=
  [[0x08#8] ++ bytes "hx" ++ [0x08#8], [0#8] ++ bytes "exit" ++ [0#8]]

theorem session_refines_exit :
    (∀ line ∈ twoLines, 0x0A#8 ∉ line) ∧ (∀ line ∈ twoLines, LineFits 8 (typed line)) ∧
      ∃ terminal, (runAll (readKey emptyStack) (keysOf twoLines)
        (initializeShell (unstarted 8))).map State.observe = some ⟨false, terminal⟩ := by
  have noEnter : ∀ line ∈ twoLines, 0x0A#8 ∉ line := by decide
  have fits : ∀ line ∈ twoLines, LineFits 8 (typed line) := by
    have short : ∀ line ∈ twoLines, (typed line).length ≤ 4 := by decide
    have edits : ∀ keys : List (BitVec 8), (edited keys).length ≤ keys.length := by
      intro keys
      induction keys using List.reverseRecOn with
      | nil => exact Nat.le_refl _
      | append_singleton keys c inductionHypothesis =>
          rw [edited_concat, edit]
          split
          · simp only [List.length_dropLast, List.length_append]
            omega
          · simp only [List.length_append]
            omega
    intro line member
    have few := short line member
    refine ⟨fun before isPrefix => ?_, ?_⟩
    · exact Nat.le_trans (edits before) (Nat.le_trans isPrefix.length_le (by omega))
    · have within := edits (typed line)
      omega
  exact ⟨noEnter, fits, _,
    session_refines (by decide) (unstarted 8) twoLines noEnter fits⟩

end Os88.Shell
