/-
Module: Os88.MiniOs.LineBounds
Purpose: When every index of `inp` that `isr_keyb` uses is below 100 and every string
  it compares ends inside `inp`.
Trusted boundary: none
Main exports: Progress, Terminated, Holds, StringTerminated, terminated_iff,
  line_buffer_holds_iff
-/
import Os88.MiniOs.ComparedLine

namespace Os88.MiniOs

open Execution
open Keyboard
open StringLib

/-- The lines that were entered, and the scancodes since the last Enter. -/
structure Progress where
  history : List Line
  line : Line
deriving DecidableEq, Repr

/-- The scancode is the press of Enter. -/
def EntersLine (buf : BitVec 8) : Prop :=
  buf &&& 0x80#8 = 0#8 ∧ keyOf buf = 0x0A#8

instance (buf : BitVec 8) : Decidable (EntersLine buf) :=
  inferInstanceAs (Decidable (_ ∧ _))

/-- One more scancode. -/
def Progress.next (a : Progress) (buf : BitVec 8) : Progress :=
  if EntersLine buf then ⟨a.history ++ [a.line], []⟩ else ⟨a.history, a.line ++ [buf]⟩

/-- A key of the line maps to 0, or a byte behind its newline is not a newline that an
earlier line left. -/
def Terminated (history : List Line) (keys : List (BitVec 8)) : Prop :=
  0#8 ∈ keys ∨ ∃ i < 100, keys.length < i ∧ ¬ NewlineLeft history i

instance (history : List Line) (keys : List (BitVec 8)) :
    Decidable (Terminated history keys) :=
  inferInstanceAs (Decidable (_ ∨ _))

/-- A key finds room in the buffer, and an Enter moreover a terminator. -/
def Holds (buf : BitVec 8) (a : Progress) : Prop :=
  buf &&& 0x80#8 = 0#8 →
    (typed a.line).length < 100 ∧
      (keyOf buf = 0x0A#8 → Terminated a.history (typed a.line))

instance (buf : BitVec 8) (a : Progress) : Decidable (Holds buf a) :=
  inferInstanceAs (Decidable (_ → _))

/-- The string that an Enter compares ends inside `inp`. -/
def StringTerminated (buf : BitVec 8) (s : Keyboard) : Prop :=
  EntersLine buf → ∃ str, comparedText buf s = some str

section Bounds

variable {env : Surroundings} {history : List Line} {line : Line} {keys : List (BitVec 8)}
  {buf : BitVec 8} {s : Keyboard} {a : Progress}

theorem leftByte_eq_zero_iff {i : Nat} : leftByte history i = 0#8 ↔ ¬ NewlineLeft history i := by
  rw [leftByte]
  split_ifs with left
  · exact iff_of_false (by decide) (fun nothing => nothing left)
  · exact iff_of_true rfl left

/-- A zero of the buffer with the newline at `cntr`. -/
theorem nul_mem_entered_iff (s : Keyboard) :
    0#8 ∈ s.inp.toList.set s.cntr 0x0A#8 ↔ ∃ i < 100, i ≠ s.cntr ∧ s.byte i = 0#8 := by
  have length : s.inp.toList.length = 100 := Vector.length_toList
  rw [List.mem_iff_getElem?]
  constructor
  · rintro ⟨i, read⟩
    rw [List.getElem?_set] at read
    split_ifs at read with same inside
    · exact absurd (Option.some.inj read) (by decide)
    · have inside : i < 100 := by
        rw [← length]
        exact (List.getElem?_eq_some_iff.mp read).1
      exact ⟨i, inside, Ne.symm same, by rw [byte, List.getD_eq_getElem?_getD, read]; rfl⟩
  · rintro ⟨i, inside, apart, zero⟩
    refine ⟨i, ?_⟩
    rw [List.getElem?_set_ne (Ne.symm apart), ← zero, byte, List.getD_eq_getElem _ _ (by omega),
      List.getElem?_eq_getElem (by omega)]

/-- The newline is stored behind the keys; the terminator is one of them, or a byte
behind the newline. -/
theorem terminated_iff (typing : Typing history keys s) (room : keys.length < 100) :
    (∃ str, text (s.inp.toList.set s.cntr 0x0A#8) = some str) ↔ Terminated history keys := by
  have held : (∃ str, text (s.inp.toList.set s.cntr 0x0A#8) = some str) ↔
      0#8 ∈ s.inp.toList.set s.cntr 0x0A#8 := by
    constructor
    · rintro ⟨str, held⟩
      by_contra absent
      rw [text, CString.text_eq_none_iff.mpr absent] at held
      cases held
    · exact CString.exists_text_of_mem
  rw [held, nul_mem_entered_iff, typing.cntr]
  constructor
  · rintro ⟨i, inside, apart, zero⟩
    rw [typing.bytes] at zero
    by_cases early : i < keys.length
    · left
      rw [List.getD_eq_getElem _ _ early] at zero
      rw [← zero]
      exact List.getElem_mem early
    · right
      rw [List.getD_eq_default _ _ (by omega)] at zero
      exact ⟨i, inside, by omega, leftByte_eq_zero_iff.mp zero⟩
  · rintro (key | ⟨i, inside, behind, nothing⟩)
    · rcases List.getElem_of_mem key with ⟨i, early, zero⟩
      exact ⟨i, by omega, by omega, by rw [typing.bytes, List.getD_eq_getElem _ _ early, zero]⟩
    · refine ⟨i, inside, by omega, ?_⟩
      rw [typing.bytes, List.getD_eq_default _ _ (by omega), leftByte_eq_zero_iff]
      exact nothing

/-- The string that an Enter compares is the one of the entered buffer. -/
theorem stringTerminated_iff (typing : Typing history (typed line) s)
    (room : (typed line).length < 100) (enters : EntersLine buf) :
    StringTerminated buf s ↔ Terminated history (typed line) := by
  rw [← terminated_iff typing room, StringTerminated, forall_prop_of_true enters,
    comparedText_eq (by rw [typing.cntr]; exact room) typing.ascii enters.2]

/-! ## Steps -/

/-- A scancode that the buffer holds is served. -/
theorem scan_holds (typing : Typing a.history (typed a.line) s) (holds : Holds buf a) :
    ∃ s', scan env buf s = some s' ∧ StringTerminated buf s ∧
      Typing (a.next buf).history (typed (a.next buf).line) s' := by
  by_cases enters : EntersLine buf
  · rcases holds enters.1 with ⟨room, terminated⟩
    have ended := terminated enters.2
    rcases (terminated_iff typing room).mpr ended with ⟨str, held⟩
    obtain ⟨s', ran, next⟩ := @typing_next_line env _ _ _ _ _ typing enters.1 enters.2 room held
    refine ⟨s', ran, (stringTerminated_iff typing room enters).mpr ended, ?_⟩
    rw [Progress.next, if_pos enters]
    exact next
  · have trivially : StringTerminated buf s := fun impossible => absurd impossible enters
    rw [Progress.next, if_neg enters]
    by_cases pressed : buf &&& 0x80#8 = 0#8
    · obtain ⟨s', ran, next⟩ := @typing_press env _ _ _ _ typing (holds pressed).1 pressed
        fun enter => enters ⟨pressed, enter⟩
      exact ⟨s', ran, trivially, by rw [typed_concat_press pressed]; exact next⟩
    · rcases @typing_release env _ _ _ _ typing pressed with ⟨s', ran, next⟩
      exact ⟨s', ran, trivially, by rw [typed_concat_release pressed]; exact next⟩

/-- Any other scancode is stored behind the buffer, or an Enter compares a string that
does not end. -/
theorem scan_not_holds (typing : Typing a.history (typed a.line) s)
    (exceeds : ¬ Holds buf a) {s' : Keyboard} (ran : scan env buf s = some s') :
    ¬ StringTerminated buf s := by
  rw [Holds, Classical.not_imp, not_and_or, Classical.not_imp] at exceeds
  rcases exceeds with ⟨pressed, full | ⟨enter, endless⟩⟩
  · rw [scan, isrKeyb_overrun pressed (by rw [typing.cntr]; omega)] at ran
    cases ran
  · by_cases room : (typed a.line).length < 100
    · rwa [stringTerminated_iff typing room ⟨pressed, enter⟩]
    · rw [scan, isrKeyb_overrun pressed (by rw [typing.cntr]; omega)] at ran
      cases ran

/-! ## Runs -/

theorem line_buffer_holds_iff_meets (env : Surroundings) (screen : Screen)
    (codes : List (BitVec 8)) :
    RunKeeps (scan env) (fun buf s _ => StringTerminated buf s) codes (powerOn screen) ↔
      RunMeets (fun buf a => some (Progress.next a buf)) Holds codes ⟨[], []⟩ := by
  apply runKeeps_iff_meets (fun s (a : Progress) => Typing a.history (typed a.line) s)
    Progress.next (typing_powerOn screen)
  · intro buf s a typing holds
    exact scan_holds typing holds
  · intro buf s a typing exceeds s' ran
    exact scan_not_holds typing exceeds ran

/-- From power-on, no scancode uses an index of `inp` from 100 on and every compared
string ends inside `inp`, exactly when every key finds room and every Enter a
terminator. -/
theorem line_buffer_holds_iff (env : Surroundings) (screen : Screen)
    (codes : List (BitVec 8)) :
    RunKeeps (scan env) (fun buf s _ => StringTerminated buf s) codes (powerOn screen) ↔
      ∀ before buf, before ++ [buf] <+: codes →
        Holds buf (before.foldl Progress.next ⟨[], []⟩) := by
  rw [line_buffer_holds_iff_meets, runMeets_iff_everywhere Progress.next]

theorem foldl_next_within {codes : List (BitVec 8)}
    (within : ∀ buf ∈ codes, ¬ EntersLine buf) (a : Progress) :
    codes.foldl Progress.next a = ⟨a.history, a.line ++ codes⟩ := by
  induction codes generalizing a with
  | nil => rw [List.append_nil, List.foldl_nil]
  | cons buf rest inductionHypothesis =>
      rw [List.foldl_cons, Progress.next, if_neg (within buf (List.mem_cons_self ..)),
        inductionHypothesis fun other member => within other (List.mem_cons_of_mem buf member),
        List.append_assoc, List.singleton_append]

/-- The 101st key of a line is stored behind `inp`. -/
theorem long_line_overruns :
    ¬ ∀ (env : Surroundings) (screen : Screen) (codes : List (BitVec 8)),
        RunKeeps (scan env) (fun buf s _ => StringTerminated buf s) codes
          (powerOn screen) := by
  intro claimed
  have met := (line_buffer_holds_iff_meets ⟨id, id⟩ (blankSession []).screen
    (List.replicate 101 0x1E#8)).mp (claimed ..)
  have last := (runMeets_iff_everywhere Progress.next).mp met (List.replicate 100 0x1E#8)
    0x1E#8 (by decide)
  have within : ∀ buf ∈ List.replicate 100 0x1E#8, ¬ EntersLine buf := by
    intro buf member
    rw [List.eq_of_mem_replicate member]
    decide
  have room := (last (by decide)).1
  rw [foldl_next_within within, List.nil_append, typed, List.filter_replicate_of_pos (by decide),
    List.map_replicate, List.length_replicate] at room
  exact Nat.lt_irrefl 100 room

end Bounds

end Os88.MiniOs
