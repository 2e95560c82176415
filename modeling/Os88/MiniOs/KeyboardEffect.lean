/-
Module: Os88.MiniOs.KeyboardEffect
Purpose: What one scancode does to the line buffer.
Trusted boundary: none
Main exports: Keyboard.byte, Ascii, SameLine, commandOf, isrKeyb_release,
  isrKeyb_character, isrKeyb_enter
-/
import Mathlib.Data.List.GetD
import Os88.MiniOs.Keyboard

namespace Os88.MiniOs

open Execution
open StringLib

namespace Keyboard

/-- `inp[i]`, and 0 behind the end of the buffer. -/
def byte (s : Keyboard) (i : Nat) : BitVec 8 :=
  s.inp.toList.getD i 0#8

/-- Every byte of the line buffer is a character that `drawtext` knows. -/
def Ascii (s : Keyboard) : Prop :=
  ∀ i, (s.byte i).toNat < 128

/-- The two states have the same line buffer. -/
structure SameLine (s s' : Keyboard) : Prop where
  inp : s'.inp = s.inp
  cntr : s'.cntr = s.cntr

variable {s s' : Keyboard}

theorem SameLine.byte (same : SameLine s s') (i : Nat) : s'.byte i = s.byte i := by
  rw [Keyboard.byte, same.inp, Keyboard.byte]

theorem SameLine.ascii (same : SameLine s s') (ascii : s.Ascii) : s'.Ascii := by
  intro i
  rw [same.byte]
  exact ascii i

end Keyboard

open Keyboard

variable {env : Surroundings} {s s' s'' : Keyboard} {buf ch : BitVec 8}

theorem sameLine_refl (s : Keyboard) : SameLine s s := ⟨rfl, rfl⟩

theorem sameLine_trans (first : SameLine s s') (second : SameLine s' s'') :
    SameLine s s'' :=
  ⟨second.inp.trans first.inp, second.cntr.trans first.cntr⟩

theorem getElem?_inp {i : Nat} (inside : i < 100) : s.inp[i]? = some (s.byte i) := by
  simp [Keyboard.byte, inside]

/-- The table has no character above 127. -/
theorem keyOf_lt (buf : BitVec 8) : (keyOf buf).toNat < 128 := by
  have entries : ∀ ch ∈ kbdus, ch.toNat < 128 := by simp [kbdus]
  unfold keyOf
  by_cases listed : buf.toNat < kbdus.length
  · rw [List.getD_eq_getElem _ _ listed]
    exact entries _ (List.getElem_mem listed)
  · rw [List.getD_eq_default _ _ (Nat.le_of_not_lt listed)]
    decide

/-! ## Assignments -/

theorem setInp_spec {i : Nat} (inside : i < 100) (ch : BitVec 8)
    (s : Keyboard) :
    ∃ s', s.setInp i ch = some s' ∧ s'.cntr = s.cntr ∧
      s'.inp.toList = s.inp.toList.set i ch ∧
      ∀ j, s'.byte j = if j = i then ch else s.byte j := by
  refine ⟨_, dif_pos inside, rfl, Vector.toList_set inside, ?_⟩
  intro j
  simp only [Keyboard.byte, Vector.toList_set, List.getD_eq_getElem?_getD,
    List.getElem?_set, Vector.length_toList]
  by_cases same : j = i
  · subst same
    simp [inside]
  · rw [if_neg (Ne.symm same), if_neg same]

/-- A character below 128 is drawn, and the line buffer stays as it is. -/
theorem draw_spec {charnum : Int} (first : 0 ≤ charnum) (last : charnum < 257)
    (s : Keyboard) : ∃ s', s.draw charnum = some s' ∧ SameLine s s' := by
  rcases drawtext_total first last s.screen with ⟨screen, drawn⟩
  exact ⟨{ s with screen := screen }, by rw [draw, drawn]; rfl, rfl, rfl⟩

theorem draw_erase_spec (s : Keyboard) :
    ∃ s', s.draw (-1) = some s' ∧ SameLine s s' :=
  ⟨{ s with screen := eraseCell s.screen }, rfl, rfl, rfl⟩

theorem draw_character_spec (ascii : ch.toNat < 128) (s : Keyboard) :
    ∃ s', s.draw ch.toInt = some s' ∧ SameLine s s' := by
  have value : ch.toInt = ch.toNat := by
    rw [BitVec.toInt_eq_toNat_cond, if_pos (by omega)]
  exact draw_spec (by omega) (by omega) s

/-! ## Loops -/

theorem echo_spec {k : Nat} (inside : k < 100) (ascii : s.Ascii) :
    ∃ s', echo k s = some s' ∧ SameLine s s' := by
  rcases draw_character_spec (ascii k) s with ⟨s', drawn, same⟩
  have read := getElem?_inp (s := s) inside
  have again := getElem?_inp (s := s') inside
  have ran : echo k s = some (((s'.call (.putcc (s'.byte k))).call
      (.printf "\n")).call (.printsss (s'.inp.toList.take 10))) := by
    simp only [echo, read, drawn, again, Option.bind_eq_bind, Option.bind_some]
    rfl
  exact ⟨_, ran, same.inp, same.cntr⟩

theorem echo_loop_spec (inside : s.cntr < 100) (ascii : s.Ascii) :
    ∃ s', countLoop echo 0 s.cntr s = some s' ∧ SameLine s s' := by
  apply countLoop_rule (fun _ s' => SameLine s s') (sameLine_refl s)
  intro k s' _ bound same
  rcases echo_spec (by omega : k < 100) (same.ascii ascii) with ⟨s'', ran, kept⟩
  exact ⟨s'', ran, sameLine_trans same kept⟩

/-- The line is cleared up to `cntr`, and not at `cntr`. -/
theorem clearLine_spec (inside : s.cntr < 100) :
    ∃ s', clearLine s = some s' ∧
      ∀ i, s'.byte i = if i < s.cntr then 0#8 else s.byte i := by
  have loop : ∃ s', clearLine s = some s' ∧
      ∀ i, s'.byte i = if i < 0 + s.cntr then 0#8 else s.byte i := by
    apply countLoop_rule (fun l (s' : Keyboard) =>
      ∀ i, s'.byte i = if i < l then 0#8 else s.byte i)
    · intro i
      rfl
    · intro l s' _ bound cleared
      rcases setInp_spec (by omega : l < 100) 0#8 s' with ⟨s'', ran, -, -, stored⟩
      refine ⟨s'', ran, ?_⟩
      intro i
      rw [stored, cleared]
      split_ifs <;> first | rfl | omega
  simpa only [Nat.zero_add] using loop

/-! ## Enter -/

/-- The command of a line, with its newline. -/
def commandOf (str : List (BitVec 8)) : Branch :=
  if str = dirLine then .dir else if str = demoLine then .demo else .none

theorem dirBranch_spec (inside : s.cntr < 100) :
    ∃ s', dirBranch env s = some s' ∧
      ∀ i, s'.byte i = if i < s.cntr then 0#8 else s.byte i := by
  obtain ⟨s₁, drawn₁, same₁⟩ := draw_spec (by decide : (0 : Int) ≤ 0x20)
    (by decide) ({ s with screen := env.listDirectory s.screen }.call
      (.printf "CORRECT! IMPLEMENT DIR CODE HERE\n"))
  obtain ⟨s₂, drawn₂, same₂⟩ := draw_spec (by decide : (0 : Int) ≤ 0x4F)
    (by decide) s₁
  obtain ⟨s₃, drawn₃, same₃⟩ := draw_spec (by decide : (0 : Int) ≤ 0x20)
    (by decide) s₂
  have same : SameLine s s₃ :=
    sameLine_trans ⟨same₁.inp, same₁.cntr⟩ (sameLine_trans same₂ same₃)
  rcases @clearLine_spec s₃ (by rwa [same.cntr]) with ⟨s', ran, cleared⟩
  refine ⟨s', ?_, ?_⟩
  · simp only [dirBranch, drawn₁, drawn₂, drawn₃, ran, Option.bind_eq_bind,
      Option.bind_some]
  · intro i
    rw [cleared, same.cntr, same.byte]

theorem demoBranch_spec (inside : s.cntr < 100) :
    ∃ s', demoBranch env s = some s' ∧
      ∀ i, s'.byte i = if i < s.cntr then 0#8 else s.byte i :=
  clearLine_spec inside

theorem dirLine_nulFree : 0#8 ∉ dirLine := by decide

theorem demoLine_nulFree : 0#8 ∉ demoLine := by decide

/-- An Enter takes the command whose name the buffer holds. -/
theorem enterLine_spec {str : List (BitVec 8)} (inside : s.cntr < 100)
    (ascii : s.Ascii) (held : text s.inp.toList = some str) :
    ∃ s', enterLine env s = some (commandOf str, s') ∧ s'.cntr = 0 ∧
      ∀ i, s'.byte i = if i < s.cntr then 0#8 else s.byte i := by
  obtain ⟨s₁, echoed, same₁⟩ := @echo_loop_spec (s.call (.printf "ENTERKEY\n"))
    inside ascii
  have same : SameLine s s₁ := ⟨same₁.inp, same₁.cntr⟩
  have heldNow : text s₁.inp.toList = some str := by rw [same.inp, held]
  have insideNow : s₁.cntr < 100 := by rw [same.cntr]; exact inside
  obtain ⟨dir, comparedDir, isDir⟩ := strcmp_of_text
    (CString.text_append_nul dirLine_nulFree []) heldNow
  obtain ⟨demo, comparedDemo, isDemo⟩ := strcmp_of_text
    (CString.text_append_nul demoLine_nulFree []) heldNow
  have run : ∃ s', enterLine env s = some (commandOf str, s') ∧ s'.cntr = 0 ∧
      ∀ i, s'.byte i = if i < s₁.cntr then 0#8 else s₁.byte i := by
    by_cases dirEntered : dirLine = str
    · rcases @dirBranch_spec env s₁ insideNow with ⟨s', ran, cleared⟩
      refine ⟨{ s' with cntr := 0 }, ?_, rfl, cleared⟩
      have zero := isDir.mpr dirEntered
      simp only [enterLine, echoed, literal, comparedDir, zero, ran, commandOf,
        if_pos dirEntered.symm, Option.bind_eq_bind, Option.bind_some, if_true]
      rfl
    · have nonzero : dir ≠ 0#32 := fun zero => dirEntered (isDir.mp zero)
      have notDir : str ≠ dirLine := fun same => dirEntered same.symm
      by_cases demoEntered : demoLine = str
      · rcases @demoBranch_spec env s₁ insideNow with ⟨s', ran, cleared⟩
        refine ⟨{ s' with cntr := 0 }, ?_, rfl, cleared⟩
        have zero := isDemo.mpr demoEntered
        simp only [enterLine, echoed, literal, comparedDir, comparedDemo, zero,
          nonzero, ran, commandOf, if_neg notDir, if_pos demoEntered.symm,
          Option.bind_eq_bind, Option.bind_some, if_true, if_false]
        rfl
      · have nonzeroDemo : demo ≠ 0#32 := fun zero => demoEntered (isDemo.mp zero)
        have notDemo : str ≠ demoLine := fun same => demoEntered same.symm
        rcases @clearLine_spec s₁ insideNow with ⟨s', ran, cleared⟩
        refine ⟨{ s' with cntr := 0 }, ?_, rfl, cleared⟩
        simp only [enterLine, echoed, literal, comparedDir, comparedDemo, nonzero,
          nonzeroDemo, ran, commandOf, if_neg notDir, if_neg notDemo,
          Option.bind_eq_bind, Option.bind_some, if_false]
        rfl
  rcases run with ⟨s', ran, zero, cleared⟩
  refine ⟨s', ran, zero, ?_⟩
  intro i
  rw [cleared, same.cntr, same.byte]

/-! ## One scancode -/

/-- A release changes nothing of the line. -/
theorem isrKeyb_release (released : buf &&& 0x80#8 ≠ 0#8) (s : Keyboard) :
    ∃ s', isrKeyb env buf s = some (none, s') ∧ SameLine s s' := by
  refine ⟨s.call (.outb 0x20 0x20), ?_, rfl, rfl⟩
  simp only [isrKeyb, released, if_false, Option.bind_eq_bind, Option.bind_some]
  rfl

/-- What `pressKey` does before it looks at the key. -/
theorem store_key_spec (inside : s.cntr < 100) (buf : BitVec 8) :
    ∃ s₁ s₂ s₃, (s.shift (-16)).draw (-1) = some s₁ ∧
      (s₁.shift (-16)).setInp s₁.cntr (keyOf buf) = some s₂ ∧
      s₂.inp[s₂.cntr]? = some (keyOf buf) ∧
      (s₂.call (.putcc (keyOf buf))).draw (keyOf buf).toInt = some s₃ ∧
      s₃.inp[s₃.cntr]? = some (keyOf buf) ∧ s₃.cntr = s.cntr ∧
      s₃.inp.toList = s.inp.toList.set s.cntr (keyOf buf) ∧
      ∀ i, s₃.byte i = if i = s.cntr then keyOf buf else s.byte i := by
  rcases draw_erase_spec (s.shift (-16)) with ⟨s₁, erased, same₁⟩
  have same : SameLine s (s₁.shift (-16)) := ⟨same₁.inp, same₁.cntr⟩
  have insideNow : s₁.cntr < 100 := by rw [same₁.cntr]; exact inside
  obtain ⟨s₂, stored, cntr₂, list₂, byte₂⟩ :=
    setInp_spec insideNow (keyOf buf) (s₁.shift (-16))
  have index : s₂.cntr = s.cntr := cntr₂.trans same.cntr
  have index₁ : s₁.cntr = s.cntr := same.cntr
  obtain ⟨s₃, drawn, same₃⟩ := draw_character_spec (keyOf_lt buf)
    (s₂.call (.putcc (keyOf buf)))
  have sameLast : SameLine s₂ s₃ := ⟨same₃.inp, same₃.cntr⟩
  have bytes : ∀ i, s₂.byte i = if i = s.cntr then keyOf buf else s.byte i := by
    intro i
    rw [byte₂, index₁, same.byte]
  refine ⟨s₁, s₂, s₃, erased, stored, ?_, drawn, ?_, ?_, ?_, ?_⟩
  · rw [index, getElem?_inp inside, bytes, if_pos rfl]
  · rw [sameLast.cntr, index, getElem?_inp inside, sameLast.byte, bytes, if_pos rfl]
  · rw [sameLast.cntr, index]
  · rw [sameLast.inp, list₂, index₁, same.inp]
  · intro i
    rw [sameLast.byte, bytes]

/-- A key of the table in the buffer leaves it a buffer of characters. -/
theorem ascii_of_stored (ascii : s.Ascii)
    (stored : ∀ i, s'.byte i = if i = s.cntr then keyOf buf else s.byte i) : s'.Ascii := by
  intro i
  rw [stored]
  split
  · exact keyOf_lt buf
  · exact ascii i

/-- The cursor is drawn again at the end of `pressKey`. -/
theorem cursor_spec (s : Keyboard) :
    ∃ s', (s.shift (-2)).draw 0x5F = some s' ∧ SameLine s (s'.shift 2) := by
  obtain ⟨s', drawn, same⟩ := draw_spec (by decide : (0 : Int) ≤ 0x5F) (by decide)
    (s.shift (-2))
  exact ⟨s', drawn, same.inp, same.cntr⟩

/-- A key behind the end of the buffer is a fault. -/
theorem isrKeyb_overrun (pressed : buf &&& 0x80#8 = 0#8) (full : 100 ≤ s.cntr) :
    isrKeyb env buf s = none := by
  rcases draw_erase_spec (s.shift (-16)) with ⟨s₁, erased, same⟩
  have cntr : s₁.cntr = s.cntr := same.cntr
  have stored : (s₁.shift (-16)).setInp s₁.cntr (keyOf buf) = none := by
    rw [setInp, dif_neg (by rw [cntr]; omega)]
  simp only [isrKeyb, pressKey, pressed, erased, stored, Option.bind_eq_bind,
    Option.bind_some, Option.bind_none, if_true]

/-- Any key but Enter is appended to the line. -/
theorem isrKeyb_character (pressed : buf &&& 0x80#8 = 0#8)
    (other : keyOf buf ≠ 0x0A#8) (inside : s.cntr < 100) :
    ∃ s', isrKeyb env buf s = some (none, s') ∧ s'.cntr = s.cntr + 1 ∧
      ∀ i, s'.byte i = if i = s.cntr then keyOf buf else s.byte i := by
  obtain ⟨s₁, s₂, s₃, erased, stored, read, drawn, again, cntr, -, bytes⟩ :=
    store_key_spec inside buf
  rcases cursor_spec { s₃ with cntr := s₃.cntr + 1 } with ⟨s₄, cursor, same⟩
  refine ⟨(s₄.shift 2).call (.outb 0x20 0x20), ?_, ?_, ?_⟩
  · simp only [isrKeyb, pressKey, pressed, erased, stored, read, drawn, again,
      other, cursor, Option.bind_eq_bind, Option.bind_some, if_true, if_false]
    rfl
  · exact same.cntr.trans (congrArg (· + 1) cntr)
  · intro i
    exact (same.byte i).trans (bytes i)

/-- Enter compares the line with the commands, clears what is in front of its
newline, and starts the next line. -/
theorem isrKeyb_enter {str : List (BitVec 8)} (pressed : buf &&& 0x80#8 = 0#8)
    (enter : keyOf buf = 0x0A#8) (inside : s.cntr < 100) (ascii : s.Ascii)
    (held : text (s.inp.toList.set s.cntr 0x0A#8) = some str) :
    ∃ s', isrKeyb env buf s = some (some (commandOf str), s') ∧ s'.cntr = 0 ∧
      ∀ i, s'.byte i = if i < s.cntr then 0#8
        else if i = s.cntr then 0x0A#8 else s.byte i := by
  obtain ⟨s₁, s₂, s₃, erased, stored, read, drawn, again, cntr, list, bytes⟩ :=
    store_key_spec inside buf
  rw [enter] at stored read drawn again list
  obtain ⟨s₄, ran, zero, cleared⟩ := @enterLine_spec env s₃ str
    (by rw [cntr]; exact inside) (ascii_of_stored ascii bytes) (by rw [list, held])
  rcases cursor_spec s₄ with ⟨s₅, cursor, same⟩
  refine ⟨(s₅.shift 2).call (.outb 0x20 0x20), ?_, same.cntr.trans zero, ?_⟩
  · simp only [isrKeyb, pressKey, pressed, enter, erased, stored, read, drawn,
      again, ran, cursor, Option.bind_eq_bind, Option.bind_some, Option.map_some,
      if_true]
    rfl
  · intro i
    rw [← enter, ← cntr]
    refine (same.byte i).trans ((cleared i).trans ?_)
    rw [bytes, cntr]

end Os88.MiniOs
