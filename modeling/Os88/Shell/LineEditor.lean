/-
Module: Os88.Shell.LineEditor
Purpose: The line buffer of the shell against the line shown on the screen.
Trusted boundary: none
Main exports: shownLine, EnterShowsLine, LineFits, Tracks,
  enter_shows_line_iff
-/
import Mathlib.Data.List.Infix
import Os88.Shell.Model

namespace Os88.Shell

open Execution
open StringLib

/-! ## The line -/

/-- One character that reaches the screen; a backspace removes the last one. -/
def edit (shown : List (BitVec 8)) (c : BitVec 8) : List (BitVec 8) :=
  if c = 0x08#8 then shown.dropLast else shown ++ [c]

/-- The text that a line of keys stands for. -/
def edited (line : List (BitVec 8)) : List (BitVec 8) :=
  line.foldl edit []

/-- The keys since the last Enter. -/
def currentLine (keys : List (BitVec 8)) : List (BitVec 8) :=
  keys.foldl (fun line c => if c = 0x0A#8 then [] else line ++ [c]) []

/-- What a call of the terminal leaves of the line behind the prompt. -/
def showCall (shown : List (BitVec 8)) : TerminalCall → List (BitVec 8)
  | .writestring text => if text = bytes "mato:myos/$ " then [] else shown
  | .putchar c => edit shown c
  | _ => shown

/-- The characters echoed since the last prompt, without those that an echoed
backspace removed. -/
def shownLine (terminal : List TerminalCall) : List (BitVec 8) :=
  terminal.foldl showCall []

/-- If Enter is typed now, the buffer handed to the interpreter holds a
terminated string, and it is the line shown. -/
def EnterShowsLine {N : Nat} (s : State N) : Prop :=
  text (shellBufferread (typeKey 0x0A#8 s)).1 =
    some (shownLine (typeKey 0x0A#8 s).terminal)

/-- The text of the line never gets longer than the buffer. -/
def InBounds (N : Nat) (line : List (BitVec 8)) : Prop :=
  ∀ before, before <+: line → (edited before).length ≤ N

/-- ... and in the end leaves room for the newline and the terminator. -/
def LineFits (N : Nat) (line : List (BitVec 8)) : Prop :=
  InBounds N line ∧ (edited line).length + 2 ≤ N

theorem edited_concat (line : List (BitVec 8)) (c : BitVec 8) :
    edited (line ++ [c]) = edit (edited line) c := by
  simp [edited]

theorem edit_backspace (shown : List (BitVec 8)) :
    edit shown 0x08#8 = shown.dropLast :=
  if_pos rfl

theorem edit_character {c : BitVec 8} (character : c ≠ 0x08#8)
    (shown : List (BitVec 8)) : edit shown c = shown ++ [c] :=
  if_neg character

theorem currentLine_concat (keys : List (BitVec 8)) (c : BitVec 8) :
    currentLine (keys ++ [c]) =
      if c = 0x0A#8 then [] else currentLine keys ++ [c] := by
  simp [currentLine]

theorem shownLine_concat (terminal : List TerminalCall) (made : TerminalCall) :
    shownLine (terminal ++ [made]) = showCall (shownLine terminal) made := by
  simp [shownLine]

theorem inBounds_concat_iff {N : Nat} {line : List (BitVec 8)} {c : BitVec 8} :
    InBounds N (line ++ [c]) ↔
      InBounds N line ∧ (edited (line ++ [c])).length ≤ N := by
  constructor
  · intro inBounds
    exact ⟨fun before isPrefix =>
      inBounds before (isPrefix.trans (List.prefix_append line [c])),
      inBounds _ List.prefix_rfl⟩
  · rintro ⟨inBounds, final⟩ before isPrefix
    rcases List.prefix_concat_iff.mp isPrefix with rfl | earlier
    · exact final
    · exact inBounds before earlier

/-! ## The contents of the buffer -/

section Buffer

variable {N : Nat} {s : State N} {c : BitVec 8}

/-- The characters in the line buffer. -/
def State.contents (s : State N) : List (BitVec 8) :=
  s.shellBuffer.toList.take s.shellBuffersize.toNat

theorem length_contents (s : State N) :
    s.contents.length = s.shellBuffersize.toNat := by
  rw [State.contents, List.length_take, Vector.length_toList]
  exact Nat.min_eq_left s.size_le

@[simp] theorem contents_call (s : State N) (made : TerminalCall) :
    (s.call made).contents = s.contents := rfl

@[simp] theorem terminal_call (s : State N) (made : TerminalCall) :
    (s.call made).terminal = s.terminal ++ [made] := rfl

@[simp] theorem contents_shellBufferclear (s : State N) :
    (shellBufferclear s).contents = [] := List.take_zero

@[simp] theorem terminal_shellBufferpush (c : BitVec 8) (s : State N) :
    (shellBufferpush c s).terminal = s.terminal := by
  unfold shellBufferpush
  split <;> rfl

@[simp] theorem terminal_shellBufferpop (s : State N) :
    (shellBufferpop s).2.terminal = s.terminal := by
  unfold shellBufferpop
  split <;> rfl

theorem contents_shellBufferpush (small : N < 2 ^ 16) (c : BitVec 8)
    (s : State N) :
    (shellBufferpush c s).contents =
      if s.contents.length < N then s.contents ++ [c] else s.contents := by
  rw [length_contents, shellBufferpush]
  by_cases room : s.shellBuffersize.toNat < N
  · have next : (s.shellBuffersize + 1#16).toNat = s.shellBuffersize.toNat + 1 := by
      rw [BitVec.toNat_add]
      simp only [BitVec.toNat_ofNat]
      omega
    rw [dif_pos room, if_pos room]
    simp only [State.contents, next, Vector.toList_set]
    rw [List.take_succ_eq_append_getElem (by simpa using room),
      List.take_set_of_le (Nat.le_refl _), List.getElem_set_self]
  · rw [dif_neg room, if_neg room]

/-- A pop takes the last character, if there is one. -/
theorem shellBufferpop_spec (s : State N) :
    (s.contents = [] ∧ shellBufferpop s = (0#8, s)) ∨
      ∃ before c, s.contents = before ++ [c] ∧ (shellBufferpop s).1 = c ∧
        (shellBufferpop s).2.contents = before := by
  by_cases some_left : s.shellBuffersize ≠ 0#16
  · right
    have fewer := toNat_sub_one some_left
    have inside : (s.shellBuffersize - 1#16).toNat < N := by
      have within := s.size_le
      omega
    refine ⟨s.shellBuffer.toList.take (s.shellBuffersize - 1#16).toNat,
      s.shellBuffer[(s.shellBuffersize - 1#16).toNat], ?_, ?_, ?_⟩
    · rw [State.contents, ← fewer,
        List.take_succ_eq_append_getElem (by simpa using inside),
        Vector.getElem_toList]
    · rw [shellBufferpop, dif_pos some_left]
    · rw [shellBufferpop, dif_pos some_left]
      rfl
  · left
    have none_left : s.shellBuffersize = 0#16 := Decidable.not_not.mp some_left
    refine ⟨?_, by rw [shellBufferpop, dif_neg some_left]⟩
    apply List.eq_nil_of_length_eq_zero
    rw [length_contents, none_left]
    rfl

/-- The buffer starts with its contents. -/
theorem shellBuffer_eq (s : State N) :
    ∃ rest, s.shellBuffer.toList = s.contents ++ rest ∧
      s.contents.length + rest.length = N := by
  refine ⟨s.shellBuffer.toList.drop s.shellBuffersize.toNat,
    (List.take_append_drop _ _).symm, ?_⟩
  rw [length_contents, List.length_drop, Vector.length_toList]
  have within := s.size_le
  omega

/-- What the interpreter gets is terminated only when the terminator itself
found room. -/
theorem text_shellBufferread (small : N < 2 ^ 16) (nulFree : 0#8 ∉ s.contents) :
    text (shellBufferread s).1 =
      if s.contents.length < N then some s.contents else none := by
  rcases shellBuffer_eq (shellBufferpush 0#8 s) with ⟨rest, whole, total⟩
  rw [contents_shellBufferpush small] at whole total
  show text (shellBufferpush 0#8 s).shellBuffer.toList = _
  rw [whole]
  by_cases room : s.contents.length < N
  · simp only [if_pos room, List.append_assoc, List.cons_append, List.nil_append]
    exact CString.text_append_nul nulFree rest
  · simp only [if_neg room] at total ⊢
    have empty : rest = [] := by
      apply List.eq_nil_of_length_eq_zero
      omega
    rw [empty, List.append_nil]
    exact CString.text_eq_none_iff.mpr nulFree

end Buffer

/-! ## One key -/

section Keys

variable {N : Nat} {s : State N} {c : BitVec 8} {line : List (BitVec 8)}

theorem typeKey_character (character : c ≠ 0x08#8) (s : State N) :
    typeKey c s = (shellBufferpush c s).call (.putchar c) :=
  if_neg character

theorem shown_character (character : c ≠ 0x08#8) (s : State N) :
    shownLine (typeKey c s).terminal = shownLine s.terminal ++ [c] := by
  rw [typeKey_character character, terminal_call, shownLine_concat,
    terminal_shellBufferpush]
  exact edit_character character _

theorem contents_character (small : N < 2 ^ 16) (character : c ≠ 0x08#8)
    (s : State N) :
    (typeKey c s).contents =
      if s.contents.length < N then s.contents ++ [c] else s.contents := by
  rw [typeKey_character character, contents_call,
    contents_shellBufferpush small]

/-- A backspace removes the last character from the buffer and from the screen,
as long as the buffer has one. -/
theorem typeKey_backspace (nulFree : 0#8 ∉ s.contents) :
    (s.contents = [] ∧ typeKey 0x08#8 s = s) ∨
      (s.contents ≠ [] ∧
        (typeKey 0x08#8 s).contents = s.contents.dropLast ∧
        shownLine (typeKey 0x08#8 s).terminal =
          (shownLine s.terminal).dropLast) := by
  rcases shellBufferpop_spec s with ⟨empty, popped⟩ | ⟨before, c, whole, popped, left⟩
  · exact Or.inl ⟨empty, by simp [typeKey, popped]⟩
  · have present : c ≠ 0#8 := fun zero => nulFree (by simp [whole, zero])
    have typed : typeKey 0x08#8 s =
        (shellBufferpop s).2.call (.putchar 0x08#8) := by
      simp [typeKey, popped, present]
    refine Or.inr ⟨by simp [whole], ?_, ?_⟩
    · rw [typed, contents_call, left, whole, List.dropLast_concat]
    · rw [typed, terminal_call, shownLine_concat, terminal_shellBufferpop]
      exact edit_backspace _

/-- The state of the line while it is typed: as long as its text stays within
the buffer, the buffer and the screen hold that text; once it does not, the
buffer has lost a character that the screen shows. -/
structure Tracks (line : List (BitVec 8)) (s : State N) : Prop where
  nulFree : 0#8 ∉ s.contents
  line : (InBounds N line ∧ s.contents = edited line ∧
      shownLine s.terminal = edited line) ∨
    (¬ InBounds N line ∧ s.contents.length < (shownLine s.terminal).length)

theorem tracks_nil (empty : s.contents = [])
    (prompted : shownLine s.terminal = []) : Tracks [] s := by
  constructor
  · simp [empty]
  · refine Or.inl ⟨?_, empty, prompted⟩
    intro before isPrefix
    rw [List.prefix_nil.mp isPrefix]
    exact Nat.zero_le N

theorem tracks_character (small : N < 2 ^ 16) (character : c ≠ 0x08#8)
    (present : c ≠ 0#8) (tracks : Tracks line s) :
    Tracks (line ++ [c]) (typeKey c s) := by
  have shown := shown_character character s
  have text : edited (line ++ [c]) = edited line ++ [c] := by
    rw [edited_concat, edit_character character]
  have contents := contents_character small character s
  constructor
  · rw [contents]
    split
    · simp [tracks.nulFree, Ne.symm present]
    · exact tracks.nulFree
  · rw [inBounds_concat_iff, shown, text, List.length_append]
    by_cases room : s.contents.length < N
    · rw [contents, if_pos room]
      rcases tracks.line with ⟨inBounds, held, same⟩ | ⟨outOfBounds, lost⟩
      · left
        rw [held] at room
        exact ⟨⟨inBounds, room⟩, by rw [held], by rw [same]⟩
      · right
        exact ⟨fun inBounds => outOfBounds inBounds.1, by simpa using lost⟩
    · rw [contents, if_neg room]
      rcases tracks.line with ⟨-, held, same⟩ | ⟨outOfBounds, lost⟩
      · right
        rw [held] at room
        exact ⟨fun inBounds => room inBounds.2, by simp [held, same]⟩
      · right
        exact ⟨fun inBounds => outOfBounds inBounds.1,
          by rw [List.length_append]; exact Nat.lt_add_right _ lost⟩

theorem tracks_backspace (tracks : Tracks line s) :
    Tracks (line ++ [0x08#8]) (typeKey 0x08#8 s) := by
  have text : edited (line ++ [0x08#8]) = (edited line).dropLast := by
    rw [edited_concat, edit_backspace]
  have shorter : InBounds N (line ++ [0x08#8]) ↔ InBounds N line := by
    rw [inBounds_concat_iff, and_iff_left_iff_imp]
    intro inBounds
    rw [text, List.length_dropLast]
    exact Nat.le_trans (Nat.sub_le _ _) (inBounds line List.prefix_rfl)
  rcases typeKey_backspace tracks.nulFree with
    ⟨empty, unchanged⟩ | ⟨nonempty, contents, shown⟩
  · constructor
    · rw [unchanged]
      exact tracks.nulFree
    · rw [shorter, unchanged, text]
      rcases tracks.line with ⟨inBounds, held, same⟩ | lost
      · have none_left : edited line = [] := held.symm.trans empty
        left
        rw [none_left] at held same ⊢
        exact ⟨inBounds, held, same⟩
      · exact Or.inr lost
  · constructor
    · rw [contents]
      exact fun member => tracks.nulFree (List.mem_of_mem_dropLast member)
    · rw [shorter, contents, shown, text]
      rcases tracks.line with ⟨inBounds, held, same⟩ | ⟨outOfBounds, lost⟩
      · exact Or.inl ⟨inBounds, by rw [held], by rw [same]⟩
      · right
        refine ⟨outOfBounds, ?_⟩
        have positive := List.length_pos_of_ne_nil nonempty
        rw [List.length_dropLast, List.length_dropLast]
        omega

/-! ## Enter -/

theorem enterShowsLine_iff (small : N < 2 ^ 16) (tracks : Tracks line s) :
    EnterShowsLine s ↔ LineFits N line := by
  have newline : (0x0A#8 : BitVec 8) ≠ 0x08#8 := by decide
  have contents := contents_character small newline s
  have shown := shown_character newline s
  have nulFree : 0#8 ∉ (typeKey 0x0A#8 s).contents := by
    rw [contents]
    split
    · simp [tracks.nulFree]
    · exact tracks.nulFree
  rw [EnterShowsLine, shown, text_shellBufferread small nulFree, contents]
  by_cases room : s.contents.length < N
  · rw [if_pos room, List.length_append, List.length_singleton]
    rcases tracks.line with ⟨inBounds, held, same⟩ | ⟨outOfBounds, lost⟩
    · rw [LineFits, held, same]
      constructor
      · intro ended
        refine ⟨inBounds, ?_⟩
        split at ended
        · assumption
        · cases ended
      · rintro ⟨-, fits⟩
        exact if_pos fits
    · constructor
      · intro ended
        split at ended
        · have lengths := congrArg List.length (Option.some.inj ended)
          simp only [List.length_append] at lengths
          omega
        · cases ended
      · exact fun fits => absurd fits.1 outOfBounds
  · rw [if_neg room, if_neg room]
    constructor
    · intro ended
      cases ended
    · rintro ⟨inBounds, fits⟩
      rcases tracks.line with ⟨-, held, -⟩ | ⟨outOfBounds, -⟩
      · rw [held] at room
        omega
      · exact absurd inBounds outOfBounds

end Keys

/-! ## Runs -/

section Runs

variable {N : Nat} {env : Surroundings} {s s' : State N} {c : BitVec 8}
  {keys : List (BitVec 8)}

/-- The shell prompts with an empty line, whatever came before. -/
theorem tracks_shellClear (s : State N) : Tracks [] (shellClear s) := by
  apply tracks_nil (contents_shellBufferclear _)
  show shownLine (s.terminal ++ [.writestring (bytes "mato:myos/$ ")]) = []
  rw [shownLine_concat, showCall, if_pos rfl]

theorem tracks_initializeShell (s : State N) : Tracks [] (initializeShell s) :=
  let prompted := tracks_shellClear
    ((s.writestring "MatoOS\n").writestring "Pre pomoc pouzi prikaz help\n")
  ⟨prompted.nulFree, prompted.line⟩

/-- Every command ends in a new prompt. -/
theorem shellInterpreter_prompts {command : Buffer}
    (ran : shellInterpreter env command s = some s') :
    ∃ before, s' = shellClear before := by
  rcases Option.bind_eq_some_iff.mp ran with ⟨⟨argc, argv⟩, -, found⟩
  rcases Option.bind_eq_some_iff.mp found with ⟨command, -, obeyed⟩
  rcases Option.bind_eq_some_iff.mp obeyed with ⟨before, -, cleared⟩
  exact ⟨before, (Option.some.inj cleared).symm⟩

theorem tracks_keyPass (small : N < 2 ^ 16) (present : c ≠ 0#8)
    (tracks : Tracks (currentLine keys) s) (ran : keyPass env c s = some s') :
    Tracks (currentLine (keys ++ [c])) s' := by
  rw [currentLine_concat]
  rw [keyPass, if_pos present] at ran
  by_cases entered : c = 0x0A#8
  · rw [if_pos entered] at ran ⊢
    rcases shellInterpreter_prompts ran with ⟨before, rfl⟩
    exact tracks_shellClear before
  · rw [if_neg entered] at ran ⊢
    obtain rfl := Option.some.inj ran
    by_cases backspace : c = 0x08#8
    · subst backspace
      exact tracks_backspace tracks
    · exact tracks_character small backspace present tracks

/-- A shell that still runs was running before the key, and has made the pass
only. -/
theorem keyPass_of_readKey (ran : readKey env c s = some s')
    (active : s'.running = true) :
    s.running = true ∧ keyPass env c s = some s' := by
  unfold readKey at ran
  split at ran
  next wasActive =>
    rcases Option.map_eq_some_iff.mp ran with ⟨passed, pass, tested⟩
    refine ⟨wasActive, ?_⟩
    split at tested
    · rw [pass, tested]
    · next ended =>
      rw [← tested] at active
      exact absurd active ended
  next => cases ran

theorem tracks_run (small : N < 2 ^ 16) (nulFree : 0#8 ∉ keys) (s₀ : State N)
    (ran : runAll (readKey env) keys (initializeShell s₀) = some s)
    (active : s.running = true) : Tracks (currentLine keys) s := by
  induction keys using List.reverseRecOn generalizing s with
  | nil =>
      obtain rfl := Option.some.inj ran
      exact tracks_initializeShell s₀
  | append_singleton keys c inductionHypothesis =>
      rw [runAll_concat] at ran
      rcases Option.bind_eq_some_iff.mp ran with ⟨before, ranBefore, last⟩
      rcases keyPass_of_readKey last active with ⟨wasActive, pass⟩
      have tracks := inductionHypothesis
        (fun member => nulFree (List.mem_append_left _ member)) ranBefore wasActive
      have present : c ≠ 0#8 := fun zero => nulFree (by simp [zero])
      exact tracks_keyPass small present tracks pass

/-- At every Enter, the interpreter gets the line shown, terminated inside the
buffer, exactly when the line since the last Enter fits the buffer. -/
theorem enter_shows_line_iff (small : N < 2 ^ 16) (nulFree : 0#8 ∉ keys)
    (s₀ : State N)
    (ran : runAll (readKey env) keys (initializeShell s₀) = some s)
    (active : s.running = true) :
    EnterShowsLine s ↔ LineFits N (currentLine keys) :=
  enterShowsLine_iff small (tracks_run small nulFree s₀ ran active)

end Runs

/-- A shell before its start, and surroundings, for the runs below. -/
def unstarted (N : Nat) : State N where
  shellBuffer := Vector.replicate N 0#8
  shellBuffersize := 0#16
  running := false
  terminal := []
  size_le := Nat.zero_le N

def emptyStack : Surroundings where
  stack := fun _ => Vector.replicate 1024 0#8
  atoi := fun _ _ => 0#32
  itoa := fun _ => bytes "0"
  makeColorS := fun fg bg => fg ||| (bg <<< 4)

/-- A line that fits four bytes: a letter, a second one taken back, and a third
one. -/
theorem enter_shows_line_iff_four_bytes :
    ∃ s, runAll (readKey emptyStack) [0x61#8, 0x62#8, 0x08#8, 0x63#8]
        (initializeShell (unstarted 4)) = some s ∧
      (EnterShowsLine s ↔ LineFits 4 [0x61#8, 0x62#8, 0x08#8, 0x63#8]) :=
  ⟨_, rfl, @enter_shows_line_iff 4 emptyStack _ [0x61#8, 0x62#8, 0x08#8, 0x63#8]
    (by decide) (by decide) (unstarted 4) rfl rfl⟩

/-- Two letters fill a buffer of two bytes, and neither the newline nor the
terminator finds room. -/
theorem full_buffer_unterminated :
    ¬ ∀ (N : Nat) (env : Surroundings) (s₀ s : State N) (keys : List (BitVec 8)),
        2 ≤ N → N < 2 ^ 16 → 0#8 ∉ keys →
        runAll (readKey env) keys (initializeShell s₀) = some s →
        s.running = true → EnterShowsLine s := by
  intro claimed
  have shown := claimed 2 emptyStack (unstarted 2) _ [0x61#8, 0x62#8]
    (by decide) (by decide) (by decide) rfl rfl
  have unterminated : text (shellBufferread (typeKey 0x0A#8
      (typeKey 0x62#8 (typeKey 0x61#8 (initializeShell (unstarted 2)))))).1 =
        none := by
    decide
  exact absurd (unterminated.symm.trans shown) (by simp)

end Os88.Shell
