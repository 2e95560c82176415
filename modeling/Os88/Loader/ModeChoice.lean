/-
Module: Os88.Loader.ModeChoice
Purpose: `switch_video_mode` with a BIOS that answers every call by itself: the mode
  that the two passes of the search choose, against the answers for the modes.
Trusted boundary: `es` is 0.  A call of `int 0x10` with 4F01 either fills the block or
  fails and leaves it alone, and keeps `cx` and `di`.  The stack is apart from the list
  and the block.  What follows the store to `CurrentMode` is left out.
Main exports: Answers, Call, Pass, choiceLoop, Choice, chooseMode, Chooses,
  ChoosesReported, Intact, Stale, memoryAfter, Chooses.deterministic, Follows,
  choiceLoop_follows, follows_iff, choosesReported_iff, choosesReported_of_short,
  choiceLoop_searchLoop, switchVideoMode_chooseMode
-/
import Os88.Loader.ModeSearch

namespace Os88.Loader

open ByteMemory

/-- What the BIOS answers to the calls in their order: information about the mode, or
nothing when the call fails. -/
abbrev Answers := Nat → BitVec 16 → Option (Nat → BitVec 8)

/-- A call of 4F01: the mode asked for and the answer. -/
abbrev Call := BitVec 16 × Option (Nat → BitVec 8)

/-- The end of a pass: its calls, the mode found, if any, and the memory. -/
structure Pass where
  calls : List Call
  found : Option (BitVec 16)
  memory : Memory

/-- The block after a call. -/
def fillInfo (answer : Option (Nat → BitVec 8)) (memory : Memory) : Memory :=
  match answer with
  | some bytes => storeBytes memory VbeModeInfo 256 bytes
  | none => memory

section Source

variable (answers : Answers)

/-- The `.loop` of `switch_video_mode` and of `next_mode`, for at most `fuel` modes;
`k` calls were made before.  Whether the call failed is not looked at. -/
def choiceLoop (width height : BitVec 16) : Nat → Nat → ModeSearch → Option Pass
  | 0, _, _ => none
  | fuel + 1, k, s =>
      let cx := load16 s.memory s.di.toNat
      if cx = 0xFFFF#16 then some ⟨[], none, s.memory⟩
      else
        let answer := answers k cx
        let memory := fillInfo answer s.memory
        if Fits width height memory then some ⟨[(cx, answer)], some cx, memory⟩
        else
          (choiceLoop width height fuel (k + 1) ⟨s.di + 2, memory⟩).map fun pass =>
            { pass with calls := (cx, answer) :: pass.calls }

/-- The passes that were made, and the memory at the end: with the mode in
`CurrentMode` at `found_mode`, and as it is at `no_mode_found`. -/
structure Choice where
  first : Pass
  second : Option Pass
  memory : Memory

def chooseMode (fuel : Nat) (memory : Memory) : Option Choice := do
  let first ← choiceLoop answers 1024 768 fuel 0 (.start memory)
  match first.found with
  | some cx => return ⟨first, none, store16 first.memory CurrentMode cx⟩
  | none =>
      let second ← choiceLoop answers 1280 1024 fuel first.calls.length (.start first.memory)
      match second.found with
      | some cx => return ⟨first, some second, store16 second.memory CurrentMode cx⟩
      | none => return ⟨first, some second, second.memory⟩

end Source

/-! ## What the search is for -/

/-- The answer to the call for a mode is information with the resolution and 32 bits
per pixel. -/
def Reports (width height : BitVec 16) (answer : Option (Nat → BitVec 8)) : Prop :=
  ∃ bytes, answer = some bytes ∧ InfoFits width height bytes

/-- A pass asks for the modes of the list in their order, and ends at the first one
whose own answer reports the resolution, or at the end of the list when none does. -/
inductive Chooses (width height : BitVec 16) :
    List (BitVec 16) → List Call → Option (BitVec 16) → Prop where
  | exhausted : Chooses width height [] [] none
  | chosen (mode : BitVec 16) (rest : List (BitVec 16)) (answer : Option (Nat → BitVec 8))
      (reports : Reports width height answer) :
      Chooses width height (mode :: rest) [(mode, answer)] (some mode)
  | skipped (mode : BitVec 16) (rest : List (BitVec 16)) (answer : Option (Nat → BitVec 8))
      (calls : List Call) (found : Option (BitVec 16))
      (silent : ¬ Reports width height answer)
      (tail : Chooses width height rest calls found) :
      Chooses width height (mode :: rest) ((mode, answer) :: calls) found

/-- The first mode that reports 1024 by 768 is in `CurrentMode`, or, if none does, the
first one that reports 1280 by 1024; when none does that either, the search ends in
`no_mode_found`. -/
def ChoosesReported (answers : Answers) (modes : List (BitVec 16)) (memory : Memory) : Prop :=
  ∃ fuel choice, chooseMode answers fuel memory = some choice ∧
    Chooses 1024 768 modes choice.first.calls choice.first.found ∧
    match choice.first.found with
    | some mode => choice.second = none ∧ load16 choice.memory CurrentMode = mode
    | none => ∃ second, choice.second = some second ∧
        Chooses 1280 1024 modes second.calls second.found ∧
        ∀ mode, second.found = some mode → load16 choice.memory CurrentMode = mode

/-! ## When it is reached -/

section Conditions

variable (answers : Answers) (width height : BitVec 16)

/-- The state behind the call for the next mode of the list. -/
def ModeSearch.next (s : ModeSearch) (k : Nat) (mode : BitVec 16) : ModeSearch :=
  ⟨s.di + 2, fillInfo (answers k mode) s.memory⟩

/-- As far as the pass goes, each word of the list is still in its place when the pass
comes to it. -/
def Intact : List (BitVec 16) → Nat → ModeSearch → Prop
  | [], _, s => s.word = 0xFFFF#16
  | mode :: rest, k, s =>
      s.word = mode ∧
        (¬ Reports width height (answers k mode) → Intact rest (k + 1) (s.next answers k mode))

/-- The first call of the pass fails, and the block already shows the resolution. -/
def Stale (modes : List (BitVec 16)) (k : Nat) (memory : Memory) : Prop :=
  ∃ mode rest, modes = mode :: rest ∧ answers k mode = none ∧ Fits width height memory

/-- The memory behind the calls for all modes of the list. -/
def memoryAfter : List (BitVec 16) → Nat → Memory → Memory
  | [], _, memory => memory
  | mode :: rest, k, memory => memoryAfter rest (k + 1) (fillInfo (answers k mode) memory)

/-- None of the modes reports the resolution. -/
def NoneReports : List (BitVec 16) → Nat → Prop
  | [], _ => True
  | mode :: rest, k => ¬ Reports width height (answers k mode) ∧ NoneReports rest (k + 1)

/-- The pass does what its list and the answers for it say. -/
def Follows : List (BitVec 16) → Nat → ModeSearch → Prop
  | [], _, s => s.word = 0xFFFF#16
  | mode :: rest, k, s =>
      s.word = mode ∧ (Reports width height (answers k mode) ∨
        ¬ Fits width height (s.next answers k mode).memory ∧
          Follows rest (k + 1) (s.next answers k mode))

end Conditions

section Passes

variable {answers : Answers} {width height : BitVec 16} {modes : List (BitVec 16)}
  {fuel k : Nat} {s : ModeSearch} {pass : Pass}

/-- A call that reports the resolution fills the block with it. -/
theorem fits_of_reports {answer : Option (Nat → BitVec 8)}
    (reports : Reports width height answer) (memory : Memory) :
    Fits width height (fillInfo answer memory) := by
  rcases reports with ⟨bytes, rfl, infoFits⟩
  exact (@fits_iff (fun _ => some bytes) width height 0#16 bytes rfl memory).mpr infoFits

/-- A call that answers something else does not. -/
theorem not_fits_of_answer {bytes : Nat → BitVec 8}
    (silent : ¬ Reports width height (some bytes)) (memory : Memory) :
    ¬ Fits width height (fillInfo (some bytes) memory) := by
  intro fits
  exact silent ⟨bytes, rfl,
    (@fits_iff (fun _ => some bytes) width height 0#16 bytes rfl memory).mp fits⟩

/-- The list can only be gone through in one way. -/
theorem Chooses.deterministic {calls : List Call} {found other : Option (BitVec 16)}
    (one : Chooses width height modes calls found)
    (two : Chooses width height modes calls other) : found = other := by
  induction one generalizing other with
  | exhausted =>
      cases two
      rfl
  | chosen mode rest answer reports =>
      cases two with
      | chosen => rfl
      | skipped _ _ _ _ _ silent _ => exact absurd reports silent
  | skipped mode rest answer calls found silent tail inductionHypothesis =>
      cases two with
      | chosen _ _ _ reports => exact absurd reports silent
      | skipped _ _ _ _ _ _ otherTail => exact inductionHypothesis otherTail

/-- One round of the loop. -/
theorem choiceLoop_cases (ran : choiceLoop answers width height (fuel + 1) k s = some pass) :
    (s.word = 0xFFFF#16 ∧ pass = ⟨[], none, s.memory⟩) ∨
    (s.word ≠ 0xFFFF#16 ∧ Fits width height (s.next answers k s.word).memory ∧
      pass = ⟨[(s.word, answers k s.word)], some s.word, (s.next answers k s.word).memory⟩) ∨
    (s.word ≠ 0xFFFF#16 ∧ ¬ Fits width height (s.next answers k s.word).memory ∧
      ∃ later, choiceLoop answers width height fuel (k + 1) (s.next answers k s.word) =
          some later ∧
        pass = { later with calls := (s.word, answers k s.word) :: later.calls }) := by
  by_cases ended : s.word = 0xFFFF#16
  · have stopped : choiceLoop answers width height (fuel + 1) k s =
        some ⟨[], none, s.memory⟩ := if_pos ended
    exact Or.inl ⟨ended, Option.some.inj (ran.symm.trans stopped)⟩
  · by_cases fits : Fits width height (s.next answers k s.word).memory
    · have found : choiceLoop answers width height (fuel + 1) k s = some
          ⟨[(s.word, answers k s.word)], some s.word, (s.next answers k s.word).memory⟩ :=
        (if_neg ended).trans (if_pos fits)
      exact Or.inr (Or.inl ⟨ended, fits, Option.some.inj (ran.symm.trans found)⟩)
    · have more : choiceLoop answers width height (fuel + 1) k s =
          (choiceLoop answers width height fuel (k + 1) (s.next answers k s.word)).map
            fun pass => { pass with calls := (s.word, answers k s.word) :: pass.calls } :=
        (if_neg ended).trans (if_neg fits)
      rcases Option.map_eq_some_iff.mp (more.symm.trans ran) with ⟨later, ranLater, rfl⟩
      exact Or.inr (Or.inr ⟨ended, fits, later, ranLater, rfl⟩)

/-- More fuel does not change the end. -/
theorem choiceLoop_mono {more : Nat} (enough : fuel ≤ more)
    (ran : choiceLoop answers width height fuel k s = some pass) :
    choiceLoop answers width height more k s = some pass := by
  induction fuel generalizing more k s pass with
  | zero => cases ran
  | succ fuel inductionHypothesis =>
      obtain ⟨more, rfl⟩ := Nat.exists_eq_add_of_lt enough
      rcases choiceLoop_cases ran with
        ⟨ended, rfl⟩ | ⟨notEnd, fits, rfl⟩ | ⟨notEnd, misfit, later, ranLater, rfl⟩
      · exact if_pos ended
      · exact (if_neg notEnd).trans (if_pos fits)
      · have again := inductionHypothesis (Nat.le_add_right fuel more) ranLater
        refine ((if_neg notEnd).trans (if_neg misfit)).trans ?_
        exact Option.map_eq_some_iff.mpr ⟨later, again, rfl⟩

theorem choiceLoop_unique {other : Nat} {pass' : Pass}
    (one : choiceLoop answers width height fuel k s = some pass)
    (two : choiceLoop answers width height other k s = some pass') : pass = pass' :=
  Option.some.inj ((choiceLoop_mono (Nat.le_max_left fuel other) one).symm.trans
    (choiceLoop_mono (Nat.le_max_right fuel other) two))

/-- A pass that chooses by the list has followed it. -/
theorem follows_of_chooses (ran : choiceLoop answers width height fuel k s = some pass)
    (chooses : Chooses width height modes pass.calls pass.found) :
    Follows answers width height modes k s := by
  induction modes generalizing fuel k s pass with
  | nil =>
      cases fuel with
      | zero => cases ran
      | succ fuel =>
          rcases choiceLoop_cases ran with
            ⟨ended, -⟩ | ⟨-, -, rfl⟩ | ⟨-, -, later, -, rfl⟩
          · exact ended
          · cases chooses
          · cases chooses
  | cons mode rest inductionHypothesis =>
      cases fuel with
      | zero => cases ran
      | succ fuel =>
          rcases choiceLoop_cases ran with
            ⟨-, rfl⟩ | ⟨-, -, rfl⟩ | ⟨-, misfit, ⟨calls, found, memory⟩, ranLater, rfl⟩
          · cases chooses
          · cases chooses with
            | chosen _ _ _ reports => exact ⟨rfl, Or.inl reports⟩
            | skipped _ _ _ _ _ _ tail => cases tail
          · cases chooses with
            | chosen _ _ _ reports => exact absurd (fits_of_reports reports _) misfit
            | skipped _ _ _ _ _ _ tail =>
                exact ⟨rfl, Or.inr ⟨misfit, inductionHypothesis ranLater tail⟩⟩

/-- What a pass that follows the list comes to. -/
structure Ends (answers : Answers) (width height : BitVec 16) (modes : List (BitVec 16))
    (k : Nat) (memory : Memory) (pass : Pass) : Prop where
  chooses : Chooses width height modes pass.calls pass.found
  found_iff : pass.found = none ↔ NoneReports answers width height modes k
  left : pass.found = none →
    pass.memory = memoryAfter answers modes k memory ∧ pass.calls.length = modes.length

theorem choiceLoop_follows (notEnd : 0xFFFF#16 ∉ modes)
    (follows : Follows answers width height modes k s) :
    ∃ fuel pass, choiceLoop answers width height fuel k s = some pass ∧
      Ends answers width height modes k s.memory pass := by
  induction modes generalizing k s with
  | nil =>
      exact ⟨1, ⟨[], none, s.memory⟩, if_pos follows,
        ⟨.exhausted, iff_of_true rfl trivial, fun _ => ⟨rfl, rfl⟩⟩⟩
  | cons mode rest inductionHypothesis =>
      rcases follows with ⟨rfl, reports | ⟨misfit, later⟩⟩
      · have here : s.word ≠ 0xFFFF#16 := fun ended => notEnd (by simp [ended])
        have fits := fits_of_reports reports s.memory
        refine ⟨1, ⟨[(s.word, answers k s.word)], some s.word, _⟩,
          (if_neg here).trans (if_pos fits), .chosen _ _ _ reports, ?_, nofun⟩
        exact iff_of_false nofun fun none => none.1 reports
      · have here : s.word ≠ 0xFFFF#16 := fun ended => notEnd (by simp [ended])
        have silent : ¬ Reports width height (answers k s.word) :=
          fun reports => misfit (fits_of_reports reports s.memory)
        rcases inductionHypothesis (fun member => notEnd (List.mem_cons_of_mem _ member))
          later with ⟨fuel, pass, ran, ends⟩
        refine ⟨fuel + 1, { pass with calls := (s.word, answers k s.word) :: pass.calls },
          ?_, .skipped _ _ _ _ _ silent ends.chooses, ?_, fun missed => ?_⟩
        · refine ((if_neg here).trans (if_neg misfit)).trans ?_
          exact Option.map_eq_some_iff.mpr ⟨pass, ran, rfl⟩
        · exact ends.found_iff.trans (and_iff_right silent).symm
        · rcases ends.left missed with ⟨memory, length⟩
          exact ⟨memory, congrArg (· + 1) length⟩

/-- Stale information can only mislead the first call of a pass: behind it the block
is known not to show the resolution. -/
theorem follows_iff :
    Follows answers width height modes k s ↔
      Intact answers width height modes k s ∧ ¬ Stale answers width height modes k s.memory := by
  induction modes generalizing k s with
  | nil =>
      constructor
      · intro ended
        exact ⟨ended, by rintro ⟨mode, rest, impossible, -⟩; cases impossible⟩
      · exact fun both => both.1
  | cons mode rest inductionHypothesis =>
      constructor
      · rintro ⟨listed, reports | ⟨misfit, later⟩⟩
        · refine ⟨⟨listed, fun silent => absurd reports silent⟩, ?_⟩
          rintro ⟨_, _, same, failed, -⟩
          obtain ⟨rfl, rfl⟩ := List.cons.inj same
          rcases reports with ⟨bytes, answer, -⟩
          cases failed.symm.trans answer
        · refine ⟨⟨listed, fun _ => (inductionHypothesis.mp later).1⟩, ?_⟩
          rintro ⟨_, _, same, failed, fits⟩
          obtain ⟨rfl, rfl⟩ := List.cons.inj same
          rw [ModeSearch.next, failed] at misfit
          exact misfit fits
      · rintro ⟨⟨listed, later⟩, notStale⟩
        refine ⟨listed, ?_⟩
        by_cases reports : Reports width height (answers k mode)
        · exact Or.inl reports
        · have misfit : ¬ Fits width height (s.next answers k mode).memory := by
            rw [ModeSearch.next]
            cases answer : answers k mode with
            | none => exact fun fits => notStale ⟨mode, rest, rfl, answer, fits⟩
            | some bytes =>
                rw [answer] at reports
                exact not_fits_of_answer reports s.memory
          refine Or.inr ⟨misfit, inductionHypothesis.mpr ⟨later reports, ?_⟩⟩
          rintro ⟨_, _, -, -, fits⟩
          exact misfit fits

end Passes

section Search

variable {answers : Answers} {modes : List (BitVec 16)} {m : Memory}

/-- A search whose first pass finds a mode. -/
theorem chooseMode_found {fuel : Nat} {first : Pass} {cx : BitVec 16}
    (ran : choiceLoop answers 1024 768 fuel 0 (.start m) = some first)
    (found : first.found = some cx) :
    chooseMode answers fuel m =
      some ⟨first, none, store16 first.memory CurrentMode cx⟩ := by
  simp only [chooseMode, ran, found, Option.bind_eq_bind, Option.bind_some]
  rfl

/-- A search that goes on to the second pass. -/
theorem chooseMode_next {fuel : Nat} {first : Pass}
    (ran : choiceLoop answers 1024 768 fuel 0 (.start m) = some first)
    (missed : first.found = none) :
    chooseMode answers fuel m =
      (choiceLoop answers 1280 1024 fuel first.calls.length (.start first.memory)).map
        fun second => ⟨first, some second, match second.found with
          | some cx => store16 second.memory CurrentMode cx
          | none => second.memory⟩ := by
  simp only [chooseMode, ran, missed, Option.bind_eq_bind, Option.bind_some]
  cases choiceLoop answers 1280 1024 fuel first.calls.length (.start first.memory) with
  | none => rfl
  | some second =>
      simp only [Option.bind_some, Option.map_some]
      cases second.found <;> rfl

theorem chooseMode_first {fuel : Nat} {choice : Choice}
    (ran : chooseMode answers fuel m = some choice) :
    choiceLoop answers 1024 768 fuel 0 (.start m) = some choice.first := by
  cases firstRan : choiceLoop answers 1024 768 fuel 0 (.start m) with
  | none =>
      rw [chooseMode, firstRan] at ran
      cases ran
  | some first =>
      cases found : first.found with
      | some cx =>
          rw [chooseMode_found firstRan found] at ran
          rw [← Option.some.inj ran]
      | none =>
          rw [chooseMode_next firstRan found] at ran
          rcases Option.map_eq_some_iff.mp ran with ⟨second, -, rfl⟩
          rfl

/-- Each pass is made on its own terms, the second one with what the first has left in
the block. -/
theorem choosesReported_follows (notEnd : 0xFFFF#16 ∉ modes) :
    ChoosesReported answers modes m ↔
      Follows answers 1024 768 modes 0 (.start m) ∧
      (NoneReports answers 1024 768 modes 0 →
        Follows answers 1280 1024 modes modes.length
          (.start (memoryAfter answers modes 0 m))) := by
  constructor
  · rintro ⟨fuel, choice, ran, chooses, rest⟩
    have firstRan := chooseMode_first ran
    have follows := follows_of_chooses firstRan chooses
    refine ⟨follows, fun silent => ?_⟩
    rcases choiceLoop_follows notEnd follows with ⟨fuel', pass, ran', ends⟩
    obtain rfl := choiceLoop_unique firstRan ran'
    have missed := ends.found_iff.mpr silent
    rcases ends.left missed with ⟨memory, length⟩
    rw [chooseMode_next firstRan missed, memory, length] at ran
    rcases Option.map_eq_some_iff.mp ran with ⟨second, secondRan, isChoice⟩
    rw [missed] at rest
    rcases rest with ⟨other, same, chooses', -⟩
    rw [← isChoice] at same
    obtain rfl := Option.some.inj same
    exact follows_of_chooses secondRan chooses'
  · rintro ⟨follows, follows'⟩
    rcases choiceLoop_follows notEnd follows with ⟨fuel, first, ran, ends⟩
    cases found : first.found with
    | some cx =>
        refine ⟨fuel, _, chooseMode_found ran found, ends.chooses, ?_⟩
        rw [found]
        exact ⟨rfl, load16_store16 cx⟩
    | none =>
        have memory : first.memory = memoryAfter answers modes 0 m := (ends.left found).1
        have length := (ends.left found).2
        rcases choiceLoop_follows notEnd (follows' (ends.found_iff.mp found)) with
          ⟨fuel', second, ran', ends'⟩
        have firstRan := choiceLoop_mono (Nat.le_max_left fuel fuel') ran
        have secondRan := choiceLoop_mono (Nat.le_max_right fuel fuel') ran'
        have whole := chooseMode_next firstRan found
        rw [memory, length, secondRan] at whole
        refine ⟨_, _, whole, ends.chooses, ?_⟩
        rw [found]
        refine ⟨second, rfl, ends'.chooses, fun mode chosen => ?_⟩
        simp only [chosen]
        exact load16_store16 mode

/-- The mode that reported itself is chosen exactly when the passes read the list as it
was, and neither starts with a call that fails while the block already shows its
resolution. -/
theorem choosesReported_iff (notEnd : 0xFFFF#16 ∉ modes) :
    ChoosesReported answers modes m ↔
      (Intact answers 1024 768 modes 0 (.start m) ∧ ¬ Stale answers 1024 768 modes 0 m) ∧
      (NoneReports answers 1024 768 modes 0 →
        Intact answers 1280 1024 modes modes.length (.start (memoryAfter answers modes 0 m)) ∧
        ¬ Stale answers 1280 1024 modes modes.length (memoryAfter answers modes 0 m)) := by
  rw [choosesReported_follows notEnd, follows_iff, follows_iff]
  rfl

end Search

/-! ## Lists that end in front of the block -/

section Short

variable {answers : Answers} {m : Memory} {modes : List (BitVec 16)}

theorem fillInfo_changed (answer : Option (Nat → BitVec 8)) (m : Memory) :
    ChangedWithin 0x8502 0x8602 m (fillInfo answer m) := by
  cases answer with
  | none => exact fun _ _ => rfl
  | some bytes => exact ChangedWithin.storeBytes bytes (Nat.le_refl _) (Nat.le_refl _)

theorem memoryAfter_changed (modes : List (BitVec 16)) (k : Nat) (m : Memory) :
    ChangedWithin 0x8502 0x8602 m (memoryAfter answers modes k m) := by
  induction modes generalizing k m with
  | nil => exact fun _ _ => rfl
  | cons mode rest inductionHypothesis =>
      exact (fillInfo_changed _ m).trans (inductionHypothesis (k + 1) _)

/-- The answers do not reach a list that ends in front of the block. -/
theorem intact_of_modesAt {width height : BitVec 16} {k : Nat} {s : ModeSearch}
    (listed : ModesAt s.memory s.di.toNat (modes ++ [0xFFFF#16]))
    (short : s.di.toNat + 2 * (modes.length + 1) ≤ VbeModeInfo) :
    Intact answers width height modes k s := by
  induction modes generalizing k s with
  | nil => exact listed.1
  | cons mode rest inductionHypothesis =>
      rw [List.length_cons, VbeModeInfo] at short
      have position : (s.next answers k mode).di.toNat = s.di.toNat + 2 := by
        show (s.di.toNat + 2) % 65536 = _
        omega
      refine ⟨listed.1, fun _ => inductionHypothesis ?_ (by rw [position, VbeModeInfo]; omega)⟩
      rw [position]
      refine ModesAt.changed listed.2 (fillInfo_changed _ s.memory) (Or.inl ?_)
      rw [List.length_append, List.length_singleton]
      omega

/-- With a list of at most 128 modes only stale information can mislead the search. -/
theorem choosesReported_of_short (notEnd : 0xFFFF#16 ∉ modes)
    (listed : ModesAt m VbeModeList (modes ++ [0xFFFF#16])) (short : modes.length ≤ 128) :
    ChoosesReported answers modes m ↔
      ¬ Stale answers 1024 768 modes 0 m ∧
      (NoneReports answers 1024 768 modes 0 →
        ¬ Stale answers 1280 1024 modes modes.length (memoryAfter answers modes 0 m)) := by
  have room : VbeModeList + 2 * (modes.length + 1) ≤ VbeModeInfo := by
    show 0x8400 + _ ≤ 0x8502
    omega
  have kept : ModesAt (memoryAfter answers modes 0 m) VbeModeList (modes ++ [0xFFFF#16]) := by
    refine listed.changed (memoryAfter_changed modes 0 m) (Or.inl ?_)
    rw [List.length_append]
    exact room
  have first : Intact answers 1024 768 modes 0 (.start m) := intact_of_modesAt listed room
  have second : Intact answers 1280 1024 modes modes.length
      (.start (memoryAfter answers modes 0 m)) := intact_of_modesAt kept room
  rw [choosesReported_follows notEnd, follows_iff, follows_iff]
  simp only [first, second, true_and]
  rfl

end Short

/-! ## Answers that depend on the mode only -/

section Constant

variable (modeInfo : ModeInfos)

/-- The mode that was found. -/
def Choice.mode (choice : Choice) : Option (BitVec 16) :=
  choice.first.found.or (choice.second.bind Pass.found)

theorem choiceLoop_searchLoop (width height : BitVec 16) (fuel k : Nat) (s : ModeSearch) :
    (choiceLoop (fun _ => modeInfo) width height fuel k s).map
      (fun pass => (pass.found, pass.memory)) = searchLoop modeInfo width height fuel s := by
  induction fuel generalizing k s with
  | zero => rfl
  | succ fuel inductionHypothesis =>
      have sameInfo : ∀ cx memory, fillInfo (modeInfo cx) memory =
          getModeInfo modeInfo cx memory := fun _ _ => rfl
      simp only [choiceLoop, searchLoop, sameInfo]
      split
      · rfl
      · rw [← inductionHypothesis (k + 1)]
        split
        · rfl
        · rw [Option.map_map]
          rfl

/-- The search of `switch_video_mode` with such answers is this one. -/
theorem switchVideoMode_chooseMode (fuel : Nat) (m : Memory) :
    switchVideoMode modeInfo fuel m =
      (chooseMode (fun _ => modeInfo) fuel m).bind fun choice =>
        choice.mode.map fun cx => getModeInfo modeInfo cx choice.memory := by
  rw [switchVideoMode, ← choiceLoop_searchLoop modeInfo 1024 768 fuel 0]
  cases ran : choiceLoop (fun _ => modeInfo) 1024 768 fuel 0 (.start m) with
  | none =>
      rw [chooseMode, ran]
      rfl
  | some first =>
      cases found : first.found with
      | some cx =>
          rw [chooseMode_found ran found, Option.bind_some, Choice.mode, found]
          simp only [Option.map_some, found]
          rfl
      | none =>
          rw [chooseMode_next ran found]
          simp only [Option.map_some, found,
            ← choiceLoop_searchLoop modeInfo 1280 1024 fuel first.calls.length]
          cases choiceLoop (fun _ => modeInfo) 1280 1024 fuel first.calls.length
              (.start first.memory) with
          | none => rfl
          | some second =>
              cases found' : second.found with
              | none => simp [Choice.mode, found, found']
              | some cx => simp [Choice.mode, found, found', foundMode]

end Constant

/-! ## A block that was left by the first pass -/

/-- 1280 by 1024 with 32 bits per pixel. -/
def largeInfo : Nat → BitVec 8 := fun i =>
  if i = 19 then 0x05#8
  else if i = 21 then 0x04#8
  else if i = 25 then 0x20#8
  else 0#8

/-- A BIOS that only knows one mode. -/
def largeOnly : Answers := fun _ mode => if mode = 0x011B#16 then some largeInfo else none

/-- RAM with a captured list. -/
def capturedModes (modes : List (BitVec 16)) : Memory :=
  storeModes (fun _ => 0#8) VbeModeList (modes ++ [0xFFFF#16])

theorem largeInfo_reports : Reports 1280 1024 (largeOnly 1 0x011B#16) :=
  ⟨largeInfo, rfl, by decide, by decide, by decide⟩

theorem capturedModes_listed (modes : List (BitVec 16)) :
    ModesAt (capturedModes modes) VbeModeList (modes ++ [0xFFFF#16]) :=
  modesAt_storeModes _ _ _

theorem choosesReported_iff_single :
    ChoosesReported largeOnly [0x011B#16] (capturedModes [0x011B#16]) := by
  have listed := capturedModes_listed [0x011B#16]
  have kept : ModesAt (memoryAfter largeOnly [0x011B#16] 0 (capturedModes [0x011B#16]))
      VbeModeList [0x011B#16, 0xFFFF#16] :=
    listed.changed (memoryAfter_changed _ 0 _) (by decide)
  have answered : ∀ width height k memory,
      ¬ Stale largeOnly width height [0x011B#16] k memory := by
    rintro width height k memory ⟨mode, rest, same, failed, -⟩
    obtain ⟨rfl, rfl⟩ := List.cons.inj same
    cases failed
  refine (choosesReported_iff (by decide)).mpr
    ⟨⟨intact_of_modesAt listed (by decide), answered _ _ _ _⟩, fun _ =>
      ⟨intact_of_modesAt kept (by decide), answered _ _ _ _⟩⟩

/-- The first pass ends with the block of the mode 0x11B.  The second pass asks for the
mode 0x100 again, in vain, and takes it for 0x11B. -/
theorem not_choosesReported_stale : ¬ ∀ (answers : Answers) (modes : List (BitVec 16))
    (m : Memory), 0xFFFF#16 ∉ modes → ModesAt m VbeModeList (modes ++ [0xFFFF#16]) →
      ChoosesReported answers modes m := by
  intro always
  have listed := capturedModes_listed [0x0100#16, 0x011B#16]
  have chosen := always largeOnly [0x0100#16, 0x011B#16] _ (by decide) listed
  rcases (choosesReported_of_short (by decide) listed (by decide)).mp chosen with
    ⟨-, notStale⟩
  have silent : NoneReports largeOnly 1024 768 [0x0100#16, 0x011B#16] 0 := by
    refine ⟨?_, ?_, trivial⟩
    · rintro ⟨bytes, answer, -⟩
      cases answer
    · rintro ⟨bytes, answer, -, width, -⟩
      obtain rfl := Option.some.inj answer
      revert width
      decide
  refine notStale silent ⟨0x0100#16, [0x011B#16], rfl, rfl, ?_⟩
  exact fits_of_reports largeInfo_reports _

end Os88.Loader
