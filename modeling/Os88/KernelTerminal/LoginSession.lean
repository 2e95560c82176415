/-
Module: Os88.KernelTerminal.LoginSession
Purpose: Whole login sessions: whom `__login` lets in, and when the line it
  collects stays inside its buffer.
Trusted boundary: none beyond Os88.KernelTerminal.Login
Main exports: attempt_eq, killed_iff_passwordGiven, login_admits_iff,
  login_inside_buffer_iff
-/
import Mathlib.Data.List.Induction
import Mathlib.Data.List.Infix
import Os88.KernelTerminal.Login

namespace Os88.KernelTerminal

open Execution
open StringLib

/-! ## Lines -/

/-- The runs of a sequence in two parts: the last run of the first part goes on
in the second. -/
theorem splitOn_append {α : Type} [BEq α] (separator : α) (first second : List α) :
    (first ++ second).splitOn separator =
      (first.splitOn separator).dropLast ++
        (second.splitOn separator).modifyHead
          ((first.splitOn separator).getLastD [] ++ ·) := by
  induction first with
  | nil =>
      rw [List.nil_append, List.splitOn_nil]
      cases second.splitOn separator <;> rfl
  | cons x first inductionHypothesis =>
      rw [List.cons_append, List.splitOn_cons_eq_if_modifyHead, inductionHypothesis,
        List.splitOn_cons_eq_if_modifyHead x first]
      obtain ⟨run, runs, split⟩ :=
        List.exists_cons_of_ne_nil (List.splitOn_ne_nil separator first)
      obtain ⟨run', runs', split'⟩ :=
        List.exists_cons_of_ne_nil (List.splitOn_ne_nil separator second)
      rw [split, split']
      split
      · simp
      · cases runs with
        | nil => simp
        | cons next runs => simp

theorem pressed_append (first second : List (BitVec 8)) :
    pressed (first ++ second) = pressed first ++ pressed second :=
  List.filter_append _ _

theorem typedRuns_concat (keys : List (BitVec 8)) (c : BitVec 8) :
    typedRuns (keys ++ [c]) =
      typedLines keys ++
        (typedRuns [c]).modifyHead ((typedRuns keys).getLastD [] ++ ·) := by
  rw [typedRuns, pressed_append, splitOn_append]
  rfl

/-- The lines and the unfinished run. -/
theorem typedRuns_eq (keys : List (BitVec 8)) :
    typedRuns keys = typedLines keys ++ [(typedRuns keys).getLastD []] := by
  rcases List.eq_nil_or_concat (typedRuns keys) with empty | ⟨lines, run, whole⟩
  · exact absurd empty (List.splitOn_ne_nil _ _)
  · rw [typedLines, whole, List.concat_eq_append, List.dropLast_concat,
      List.getLastD_concat]

/-- A newline makes a line of the unfinished run. -/
theorem typedRuns_newline (keys : List (BitVec 8)) :
    typedRuns (keys ++ [0x0A#8]) = typedRuns keys ++ [[]] := by
  have split : typedRuns [0x0A#8] = [[], []] := by decide
  rw [typedRuns_concat, split, typedRuns_eq keys]
  simp

/-- A character extends the unfinished run. -/
theorem typedRuns_character {c : BitVec 8} (present : c ≠ 0#8)
    (character : c ≠ 0x0A#8) (keys : List (BitVec 8)) :
    typedRuns (keys ++ [c]) =
      typedLines keys ++ [(typedRuns keys).getLastD [] ++ [c]] := by
  have single : pressed [c] = [c] := by simp [pressed, present]
  have split : typedRuns [c] = [[c]] := by
    rw [typedRuns, single]
    exact List.splitOn_eq_singleton (by simp [Ne.symm character])
  rw [typedRuns_concat, split]
  rfl

/-- The phase and the unfinished line, read off the runs of keys. -/
theorem attempt_eq (keys : List (BitVec 8)) :
    attempt keys =
      ⟨(typedLines keys).foldl nextPhase .login, (typedRuns keys).getLastD []⟩ := by
  induction keys using List.reverseRecOn with
  | nil => rfl
  | append_singleton keys c inductionHypothesis =>
      have read : attempt (keys ++ [c]) = (attempt keys).read c := by
        simp [attempt]
      rw [read, inductionHypothesis]
      by_cases none : c = 0#8
      · subst none
        have same : pressed (keys ++ [0#8]) = pressed keys := by simp [pressed]
        rw [read_none]
        simp only [typedLines, typedRuns, same]
      · by_cases newline : c = 0x0A#8
        · subst newline
          have lines : typedLines (keys ++ [0x0A#8]) = typedRuns keys := by
            rw [typedLines, typedRuns_newline, List.dropLast_concat]
          rw [read_newline, lines, typedRuns_newline, List.getLastD_concat]
          conv_rhs => rw [typedRuns_eq, List.foldl_append]
          rfl
        · have lines : typedLines (keys ++ [c]) = typedLines keys := by
            rw [typedLines, typedRuns_character none newline, List.dropLast_concat]
          rw [read_character none newline, lines,
            typedRuns_character none newline, List.getLastD_concat]

/-- The login has ended exactly when the password was given. -/
theorem killed_iff_passwordGiven (keys : List (BitVec 8)) :
    (attempt keys).phase = .killed ↔ PasswordGiven keys := by
  rw [attempt_eq, PasswordGiven]
  generalize typedLines keys = lines
  show lines.foldl nextPhase .login = .killed ↔ _
  induction lines using List.reverseRecOn with
  | nil => simp
  | append_singleton lines line inductionHypothesis =>
      have last : (lines ++ [line]).foldl nextPhase .login = .killed ↔
          lines.foldl nextPhase .login = .killed ∨
            (lines.foldl nextPhase .login = .password ∧ line = toorWord) := by
        rw [List.foldl_append, List.foldl_cons, List.foldl_nil]
        cases lines.foldl nextPhase .login with
        | login => simp only [nextPhase]; split <;> simp
        | password => simp [nextPhase]
        | killed => simp [nextPhase]
      rw [last, inductionHypothesis]
      constructor
      · rintro (⟨before, isPrefix, phase⟩ | ⟨phase, rfl⟩)
        · exact ⟨before, isPrefix.trans (List.prefix_append lines [line]), phase⟩
        · exact ⟨lines, List.prefix_rfl, phase⟩
      · rintro ⟨before, isPrefix, phase⟩
        rcases List.prefix_concat_iff.mp isPrefix with whole | earlier
        · obtain ⟨rfl, same⟩ := List.append_inj' whole rfl
          exact Or.inr ⟨phase, (List.singleton_inj.mp same).symm⟩
        · exact Or.inl ⟨before, earlier, phase⟩

/-! ## Sessions -/

/-- Every key of a session finds room exactly when its lines fit. -/
theorem meets_iff_linesFit (keys : List (BitVec 8)) :
    RunMeets (fun c a => some (Attempt.read a c)) FindsRoom keys ⟨.login, []⟩ ↔
      LinesFit keys := by
  rw [runMeets_iff_everywhere]
  constructor
  · intro room before
    induction before using List.reverseRecOn with
    | nil =>
        intro _ _
        exact Nat.zero_le 63
    | append_singleton before c inductionHypothesis =>
        intro isPrefix going
        have found : FindsRoom c (attempt before) := room before c isPrefix
        have read : attempt (before ++ [c]) = (attempt before).read c := by
          simp [attempt]
        rw [read] at going ⊢
        by_cases none : c = 0#8
        · subst none
          rw [read_none] at going ⊢
          exact inductionHypothesis
            ((List.prefix_append before [0#8]).trans isPrefix) going
        · by_cases newline : c = 0x0A#8
          · subst newline
            rw [read_newline]
            exact Nat.zero_le 63
          · rw [read_character none newline] at going ⊢
            have short : (attempt before).line.length ≤ 62 := by
              simpa [FindsRoom, none, newline, going] using found
            show ((attempt before).line ++ [c]).length ≤ 63
            rw [List.length_append, List.length_singleton]
            omega
  · intro fit before c isPrefix
    show FindsRoom c (attempt before)
    by_cases none : c = 0#8
    · exact Or.inl none
    · by_cases newline : c = 0x0A#8
      · exact Or.inr (Or.inl newline)
      · by_cases killed : (attempt before).phase = .killed
        · exact Or.inr (Or.inr (Or.inl killed))
        · have read : attempt (before ++ [c]) = (attempt before).read c := by
            simp [attempt]
          have long := fit (before ++ [c]) isPrefix
          rw [read, read_character none newline] at long
          have room := long killed
          rw [List.length_append, List.length_singleton] at room
          exact Or.inr (Or.inr (Or.inr (by omega)))

/-- Runs of at most 63 keys fit. -/
theorem linesFit_of_short {keys : List (BitVec 8)}
    (short : ∀ run ∈ typedRuns keys, run.length ≤ 63) : LinesFit keys := by
  rintro before ⟨after, rfl⟩ -
  rw [attempt_eq]
  show ((typedRuns before).getLastD []).length ≤ 63
  obtain ⟨run, runs, split⟩ :=
    List.exists_cons_of_ne_nil (List.splitOn_ne_nil 0x0A#8 (pressed after))
  have member : (typedRuns before).getLastD [] ++ run ∈
      typedRuns (before ++ after) := by
    rw [typedRuns, pressed_append, splitOn_append, split]
    simp [typedRuns]
  have bound := short _ member
  rw [List.length_append] at bound
  omega

/-- The login task ends exactly when some line typed at the password prompt is
the password, whatever was typed before. -/
theorem login_admits_iff (block : Vector (BitVec 8) 64) (keys : List (BitVec 8))
    (short : ∀ run ∈ typedRuns keys, run.length ≤ 63) :
    ∃ t, runAll loginKey keys (Login.start block) = some t ∧
      (t.phase = .killed ↔ PasswordGiven keys) := by
  have met := (meets_iff_linesFit keys).mpr (linesFit_of_short short)
  obtain ⟨t, ran, follows⟩ :=
    runAll_simulates_of_meets Follows Attempt.read (follows_start block) met
      fun c t a follows room => loginKey_follows follows room
  refine ⟨t, ran, ?_⟩
  rw [follows.phase]
  exact killed_iff_passwordGiven keys

theorem login_admits_iff_root_toor :
    ∃ t, runAll loginKey (bytes "root\ntoor\n")
        (Login.start (Vector.replicate 64 0#8)) = some t ∧
      (t.phase = .killed ↔ PasswordGiven (bytes "root\ntoor\n")) :=
  login_admits_iff _ _ (by decide)

/-- `__login` stays inside its buffer exactly as long as the lines fit. -/
theorem login_inside_buffer_iff (block : Vector (BitVec 8) 64)
    (keys : List (BitVec 8)) :
    (∃ t, runAll loginKey keys (Login.start block) = some t) ↔ LinesFit keys := by
  rw [← meets_iff_linesFit]
  exact runAll_isSome_iff_meets Follows Attempt.read (follows_start block)
    (fun c t a follows room => loginKey_follows follows room)
    (fun c t a follows full => loginKey_overruns follows full)

end Os88.KernelTerminal
