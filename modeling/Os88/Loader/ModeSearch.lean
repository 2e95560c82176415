/-
Module: Os88.Loader.ModeSearch
Purpose: `switch_video_mode` of the second-stage loader: the search of the table
  of modes for 1024 by 768, then for 1280 by 1024, and the information block that
  it leaves for the kernel.
Trusted boundary: `es` is 0.  A call of `int 0x10` with 4F01 either fills the
  block or leaves it alone, and gives the same answer for the same mode.
Main exports: searchLoop, switchVideoMode, PassesOver, ComesTo,
  switchVideoMode_comesTo, ComesTo.unique, LeadsTo, comesTo_of_table
-/
import Os88.Loader.VideoModes

namespace Os88.Loader

open ByteMemory

def CurrentMode : Nat := 0x8500

def VbeModeInfo : Nat := 0x8502

/-- The BIOS' information about a mode, unless the call fails. -/
abbrev ModeInfos := BitVec 16 → Option (Nat → BitVec 8)

/-- `di` and the memory. -/
structure ModeSearch where
  di : BitVec 16
  memory : Memory

section Source

variable (modeInfo : ModeInfos)

/-- `int 0x10` with 4F01 in `ax`, the mode in `cx` and `VbeModeInfo` in `di`. -/
def getModeInfo (cx : BitVec 16) (memory : Memory) : Memory :=
  match modeInfo cx with
  | some bytes => storeBytes memory VbeModeInfo 256 bytes
  | none => memory

/-- The three comparisons: 32 bits per pixel, and the resolution. -/
def Fits (width height : BitVec 16) (memory : Memory) : Prop :=
  memory (VbeModeInfo + 25) = 0x20#8 ∧ load16 memory (VbeModeInfo + 18) = width ∧
    load16 memory (VbeModeInfo + 20) = height

instance (width height : BitVec 16) (memory : Memory) :
    Decidable (Fits width height memory) :=
  inferInstanceAs (Decidable (_ ∧ _ ∧ _))

/-- The `.loop` of `switch_video_mode` and of `next_mode`, for at most `fuel`
modes: the mode, if one is found, and the memory. -/
def searchLoop (width height : BitVec 16) :
    Nat → ModeSearch → Option (Option (BitVec 16) × Memory)
  | 0, _ => none
  | fuel + 1, s =>
      let cx := load16 s.memory s.di.toNat
      if cx = 0xFFFF#16 then some (none, s.memory)
      else
        let memory := getModeInfo modeInfo cx s.memory
        if Fits width height memory then some (some cx, memory)
        else searchLoop width height fuel ⟨s.di + 2, memory⟩

/-- `found_mode` -/
def foundMode (cx : BitVec 16) (memory : Memory) : Memory :=
  getModeInfo modeInfo cx (store16 memory CurrentMode cx)

/-- Both loops start at the beginning of the table. -/
def ModeSearch.start (memory : Memory) : ModeSearch :=
  ⟨BitVec.ofNat 16 VbeModeList, memory⟩

/-- `switch_video_mode` and `next_mode`; at `no_mode_found` the loader stops. -/
def switchVideoMode (fuel : Nat) (memory : Memory) : Option Memory :=
  match searchLoop modeInfo 1024 768 fuel (.start memory) with
  | none => none
  | some (some cx, memory) => some (foundMode modeInfo cx memory)
  | some (none, memory) =>
      match searchLoop modeInfo 1280 1024 fuel (.start memory) with
      | some (some cx, memory) => some (foundMode modeInfo cx memory)
      | _ => none

end Source

/-- `inf_struc->currentModeInfo`, 256 bytes. -/
def currentModeInfo (m : Memory) (infStruc : Nat) : List (BitVec 8) :=
  (List.range 256).map fun i => m (infStruc + 0x302 + i)

/-! ## What a search comes to -/

namespace ModeSearch

variable (modeInfo : ModeInfos)

/-- The mode that the search looks at. -/
def word (s : ModeSearch) : BitVec 16 := load16 s.memory s.di.toNat

/-- The state behind a question about one mode. -/
def ask (s : ModeSearch) (mode : BitVec 16) : ModeSearch :=
  ⟨s.di + 2, getModeInfo modeInfo mode s.memory⟩

/-- The state behind questions about modes, one after the other. -/
def asked (s : ModeSearch) (modes : List (BitVec 16)) : ModeSearch :=
  modes.foldl (ask modeInfo) s

end ModeSearch

section Scans

variable (modeInfo : ModeInfos) (width height : BitVec 16)

/-- The modes stand in the table one after the other, and none of them fits. -/
def PassesOver : List (BitVec 16) → ModeSearch → Prop
  | [], _ => True
  | mode :: modes, s =>
      (s.word = mode ∧ mode ≠ 0xFFFF#16 ∧
        ¬ Fits width height (s.ask modeInfo mode).memory) ∧
        PassesOver modes (s.ask modeInfo mode)

/-- The first mode that fits, behind those that do not. -/
structure FirstFit (modes : List (BitVec 16)) (mode : BitVec 16) (s : ModeSearch) :
    Prop where
  passed : PassesOver modeInfo width height modes s
  listed : (s.asked modeInfo modes).word = mode
  notEnd : mode ≠ 0xFFFF#16
  fits : Fits width height ((s.asked modeInfo modes).ask modeInfo mode).memory

/-- No mode of the table fits. -/
structure NoFit (modes : List (BitVec 16)) (s : ModeSearch) : Prop where
  passed : PassesOver modeInfo width height modes s
  ended : (s.asked modeInfo modes).word = 0xFFFF#16

end Scans

section Loop

variable {modeInfo : ModeInfos} {width height : BitVec 16} {s : ModeSearch}
  {modes : List (BitVec 16)} {mode : BitVec 16}

theorem getModeInfo_changed (mode : BitVec 16) (m : Memory) :
    ChangedWithin 0x8502 0x8602 m (getModeInfo modeInfo mode m) := by
  rw [getModeInfo]
  cases modeInfo mode with
  | none => exact fun _ _ => rfl
  | some bytes => exact ChangedWithin.storeBytes bytes (Nat.le_refl _) (Nat.le_refl _)

/-- Only the block is changed by the questions. -/
theorem asked_changed (s : ModeSearch) (modes : List (BitVec 16)) :
    ChangedWithin 0x8502 0x8602 s.memory (s.asked modeInfo modes).memory := by
  induction modes generalizing s with
  | nil => exact fun _ _ => rfl
  | cons mode modes inductionHypothesis =>
      exact (getModeInfo_changed mode s.memory).trans
        (inductionHypothesis (s.ask modeInfo mode))

theorem searchLoop_ended (ended : s.word = 0xFFFF#16) (fuel : Nat) :
    searchLoop modeInfo width height (fuel + 1) s = some (none, s.memory) :=
  if_pos ended

theorem searchLoop_fits (listed : s.word = mode) (notEnd : mode ≠ 0xFFFF#16)
    (fits : Fits width height (s.ask modeInfo mode).memory) (fuel : Nat) :
    searchLoop modeInfo width height (fuel + 1) s =
      some (some mode, (s.ask modeInfo mode).memory) := by
  subst listed
  exact (if_neg notEnd).trans (if_pos fits)

theorem searchLoop_more (listed : s.word = mode) (notEnd : mode ≠ 0xFFFF#16)
    (misfit : ¬ Fits width height (s.ask modeInfo mode).memory) (fuel : Nat) :
    searchLoop modeInfo width height (fuel + 1) s =
      searchLoop modeInfo width height fuel (s.ask modeInfo mode) := by
  subst listed
  exact (if_neg notEnd).trans (if_neg misfit)

/-- The loop goes over the modes that do not fit. -/
theorem searchLoop_over (passed : PassesOver modeInfo width height modes s) (fuel : Nat) :
    searchLoop modeInfo width height (modes.length + fuel) s =
      searchLoop modeInfo width height fuel (s.asked modeInfo modes) := by
  induction modes generalizing s with
  | nil => rw [List.length_nil, Nat.zero_add]; rfl
  | cons mode modes inductionHypothesis =>
      rcases passed with ⟨⟨listed, notEnd, misfit⟩, rest⟩
      rw [List.length_cons, Nat.add_right_comm, searchLoop_more listed notEnd misfit]
      exact inductionHypothesis rest

theorem FirstFit.searchLoop (first : FirstFit modeInfo width height modes mode s)
    (fuel : Nat) :
    searchLoop modeInfo width height (modes.length + (fuel + 1)) s =
      some (some mode, ((s.asked modeInfo modes).ask modeInfo mode).memory) := by
  rw [searchLoop_over first.passed, searchLoop_fits first.listed first.notEnd first.fits]

theorem NoFit.searchLoop (none : NoFit modeInfo width height modes s) (fuel : Nat) :
    searchLoop modeInfo width height (modes.length + (fuel + 1)) s =
      some (.none, (s.asked modeInfo modes).memory) := by
  rw [searchLoop_over none.passed, searchLoop_ended none.ended]

/-- Every end of the loop is one of the two. -/
theorem searchLoop_cases {fuel : Nat} {result : Option (BitVec 16)} {m : Memory}
    (ran : searchLoop modeInfo width height fuel s = some (result, m)) :
    (∃ modes mode, FirstFit modeInfo width height modes mode s ∧ result = some mode ∧
      m = ((s.asked modeInfo modes).ask modeInfo mode).memory) ∨
    (∃ modes, NoFit modeInfo width height modes s ∧ result = none ∧
      m = (s.asked modeInfo modes).memory) := by
  induction fuel generalizing s with
  | zero => cases ran
  | succ fuel inductionHypothesis =>
      by_cases ended : s.word = 0xFFFF#16
      · rw [searchLoop_ended ended] at ran
        obtain ⟨rfl, rfl⟩ := Prod.mk.inj (Option.some.inj ran)
        exact Or.inr ⟨[], ⟨trivial, ended⟩, rfl, rfl⟩
      by_cases fits : Fits width height (s.ask modeInfo s.word).memory
      · rw [searchLoop_fits rfl ended fits] at ran
        obtain ⟨rfl, rfl⟩ := Prod.mk.inj (Option.some.inj ran)
        exact Or.inl ⟨[], s.word, ⟨trivial, rfl, ended, fits⟩, rfl, rfl⟩
      · rw [searchLoop_more rfl ended fits] at ran
        have here := And.intro (rfl : s.word = s.word) (And.intro ended fits)
        rcases inductionHypothesis ran with
          ⟨modes, mode, first, found, memory⟩ | ⟨modes, none, missed, memory⟩
        · exact Or.inl ⟨s.word :: modes, mode,
            ⟨⟨here, first.passed⟩, first.listed, first.notEnd, first.fits⟩, found, memory⟩
        · exact Or.inr ⟨s.word :: modes, ⟨⟨here, none.passed⟩, none.ended⟩, missed,
            memory⟩

/-- More fuel does not change the end. -/
theorem searchLoop_mono {fuel more : Nat} {result : Option (BitVec 16) × Memory}
    (enough : fuel ≤ more) (ran : searchLoop modeInfo width height fuel s = some result) :
    searchLoop modeInfo width height more s = some result := by
  induction fuel generalizing more s with
  | zero => cases ran
  | succ fuel inductionHypothesis =>
      obtain ⟨more, rfl⟩ := Nat.exists_eq_add_of_lt enough
      by_cases ended : s.word = 0xFFFF#16
      · rw [searchLoop_ended ended] at ran ⊢
        exact ran
      by_cases fits : Fits width height (s.ask modeInfo s.word).memory
      · rw [searchLoop_fits rfl ended fits] at ran ⊢
        exact ran
      · rw [searchLoop_more rfl ended fits] at ran ⊢
        exact inductionHypothesis (Nat.le_add_right fuel more) ran

/-- The end does not depend on the fuel. -/
theorem searchLoop_unique {fuel other : Nat} {first second : Option (BitVec 16) × Memory}
    (one : searchLoop modeInfo width height fuel s = some first)
    (two : searchLoop modeInfo width height other s = some second) : first = second := by
  have left := searchLoop_mono (Nat.le_max_left fuel other) one
  have right := searchLoop_mono (Nat.le_max_right fuel other) two
  exact Option.some.inj (left.symm.trans right)

end Loop

/-! ## The two searches -/

section Switch

variable (modeInfo : ModeInfos)

/-- The mode is the first of the table with 1024 by 768, or the first with 1280
by 1024 when there is none; `m'` is the memory with the answer for it. -/
def Finds (m : Memory) (mode : BitVec 16) (m' : Memory) : Prop :=
  (∃ modes, FirstFit modeInfo 1024 768 modes mode (.start m) ∧
    m' = (((ModeSearch.start m).asked modeInfo modes).ask modeInfo mode).memory) ∨
  (∃ modes others, NoFit modeInfo 1024 768 modes (.start m) ∧
    FirstFit modeInfo 1280 1024 others mode
      (.start ((ModeSearch.start m).asked modeInfo modes).memory) ∧
    m' = (((ModeSearch.start ((ModeSearch.start m).asked modeInfo modes).memory).asked
      modeInfo others).ask modeInfo mode).memory)

/-- The information block that the table leads to. -/
def ComesTo (m : Memory) (info : List (BitVec 8)) : Prop :=
  ∃ mode m', Finds modeInfo m mode m' ∧ currentModeInfo m' 0x8200 = info

variable {modeInfo} {m m' : Memory} {mode : BitVec 16} {info : List (BitVec 8)}

theorem switchVideoMode_finds {fuel : Nat} {m'' : Memory}
    (ran : switchVideoMode modeInfo fuel m = some m'') :
    ∃ mode m', Finds modeInfo m mode m' ∧ m'' = foundMode modeInfo mode m' := by
  rw [switchVideoMode] at ran
  cases first : searchLoop modeInfo 1024 768 fuel (.start m) with
  | none =>
      rw [first] at ran
      cases ran
  | some result =>
      rcases result with ⟨result, middle⟩
      rw [first] at ran
      rcases searchLoop_cases first with
        ⟨modes, mode, fits, rfl, memory⟩ | ⟨modes, none, rfl, rfl⟩
      · obtain rfl := Option.some.inj ran
        exact ⟨mode, middle, Or.inl ⟨modes, fits, memory⟩, rfl⟩
      · dsimp only at ran
        cases second : searchLoop modeInfo 1280 1024 fuel
            (.start ((ModeSearch.start m).asked modeInfo modes).memory) with
        | none =>
            rw [second] at ran
            cases ran
        | some result =>
            rcases result with ⟨result, last⟩
            rw [second] at ran
            rcases searchLoop_cases second with
              ⟨others, mode, fits, rfl, memory⟩ | ⟨others, _, rfl, _⟩
            · obtain rfl := Option.some.inj ran
              exact ⟨mode, last, Or.inr ⟨modes, others, none, fits, memory⟩, rfl⟩
            · cases ran

theorem Finds.switchVideoMode (found : Finds modeInfo m mode m') :
    ∃ fuel, switchVideoMode modeInfo fuel m = some (foundMode modeInfo mode m') := by
  rcases found with ⟨modes, first, rfl⟩ | ⟨modes, others, none, first, rfl⟩
  · refine ⟨modes.length + (0 + 1), ?_⟩
    rw [Loader.switchVideoMode, first.searchLoop 0]
  · refine ⟨modes.length + (others.length + 1), ?_⟩
    have second := first.searchLoop modes.length
    rw [show others.length + (modes.length + 1) = modes.length + (others.length + 1) by
      omega] at second
    rw [Loader.switchVideoMode, none.searchLoop others.length]
    dsimp only
    rw [second]

/-- The search comes to one mode only. -/
theorem Finds.unique {other : BitVec 16} {m'' : Memory}
    (one : Finds modeInfo m mode m') (two : Finds modeInfo m other m'') : m' = m'' := by
  rcases one with ⟨modes, first, rfl⟩ | ⟨modes, modes', none, first, rfl⟩
  · rcases two with ⟨others, second, rfl⟩ | ⟨others, _, missed, _, rfl⟩
    · exact (Prod.mk.inj (searchLoop_unique (first.searchLoop 0) (second.searchLoop 0))).2
    · cases searchLoop_unique (first.searchLoop 0) (missed.searchLoop 0)
  · rcases two with ⟨others, second, rfl⟩ | ⟨others, others', missed, second, rfl⟩
    · cases searchLoop_unique (none.searchLoop 0) (second.searchLoop 0)
    · have middle :=
        (Prod.mk.inj (searchLoop_unique (none.searchLoop 0) (missed.searchLoop 0))).2
      rw [middle] at first ⊢
      exact (Prod.mk.inj (searchLoop_unique (first.searchLoop 0) (second.searchLoop 0))).2

theorem ComesTo.unique {info' : List (BitVec 8)} (one : ComesTo modeInfo m info)
    (two : ComesTo modeInfo m info') : info = info' := by
  rcases one with ⟨mode, m', found, rfl⟩
  rcases two with ⟨other, m'', second, rfl⟩
  rw [found.unique second]

/-- An answer for the mode is the last one. -/
theorem Finds.answer (found : Finds modeInfo m mode m') :
    ∃ before, m' = getModeInfo modeInfo mode before := by
  rcases found with ⟨modes, _, rfl⟩ | ⟨modes, others, _, _, rfl⟩
  · exact ⟨_, rfl⟩
  · exact ⟨_, rfl⟩

/-- Asking once more for the mode that is found changes nothing in the block. -/
theorem currentModeInfo_foundMode (mode : BitVec 16) (m : Memory) :
    currentModeInfo (foundMode modeInfo mode (getModeInfo modeInfo mode m)) 0x8200 =
      currentModeInfo (getModeInfo modeInfo mode m) 0x8200 := by
  apply List.map_congr_left
  intro i member
  have inside : i < 256 := List.mem_range.mp member
  have position : 0x8200 + 0x302 + i = VbeModeInfo + i := rfl
  rw [position, foundMode]
  cases answer : modeInfo mode with
  | none =>
      rw [getModeInfo, getModeInfo, answer]
      exact store16_apart _ _ _ (Or.inr (by show 0x8502 ≤ 0x8502 + i; omega))
  | some bytes =>
      rw [getModeInfo, getModeInfo, answer]
      dsimp only
      rw [storeBytes_inside bytes inside, storeBytes_inside bytes inside]

/-- The block that the kernel gets is that of the mode that the table leads to. -/
theorem switchVideoMode_comesTo {fuel : Nat} {m'' : Memory}
    (ran : switchVideoMode modeInfo fuel m = some m'') :
    ComesTo modeInfo m (currentModeInfo m'' 0x8200) := by
  rcases switchVideoMode_finds ran with ⟨mode, m', found, rfl⟩
  rcases found.answer with ⟨before, rfl⟩
  exact ⟨mode, _, found, (currentModeInfo_foundMode mode before).symm⟩

theorem Finds.changed (found : Finds modeInfo m mode m') :
    ChangedWithin 0x8502 0x8602 m m' := by
  rcases found with ⟨modes, _, rfl⟩ | ⟨modes, others, _, _, rfl⟩
  · exact (asked_changed (.start m) modes).trans (getModeInfo_changed mode _)
  · have first : ChangedWithin 0x8502 0x8602 m
        ((ModeSearch.start m).asked modeInfo modes).memory := asked_changed (.start m) modes
    exact (first.trans (asked_changed (.start _) others)).trans (getModeInfo_changed mode _)

/-- The search writes to the word of the mode and to the information block. -/
theorem switchVideoMode_changed {fuel : Nat} {m'' : Memory}
    (ran : switchVideoMode modeInfo fuel m = some m'') :
    ChangedWithin 0x8500 0x8602 m m'' := by
  rcases switchVideoMode_finds ran with ⟨mode, m', found, rfl⟩
  have stored : ChangedWithin 0x8500 0x8602 m' (store16 m' CurrentMode mode) :=
    ChangedWithin.store16 mode (Nat.le_refl _) (by decide)
  have answered : ChangedWithin 0x8500 0x8602 _ (foundMode modeInfo mode m') :=
    (getModeInfo_changed mode _).mono (by decide) (Nat.le_refl _)
  exact ((found.changed.mono (by decide) (Nat.le_refl _)).trans stored).trans answered

end Switch

/-! ## A table that ends before the block -/

/-- The comparisons, on the bytes of an answer. -/
def InfoFits (width height : BitVec 16) (bytes : Nat → BitVec 8) : Prop :=
  bytes 25 = 0x20#8 ∧ bytes 19 ++ bytes 18 = width ∧ bytes 21 ++ bytes 20 = height

section Table

variable {modeInfo : ModeInfos} {width height : BitVec 16}

theorem fits_iff {mode : BitVec 16} {bytes : Nat → BitVec 8}
    (answer : modeInfo mode = some bytes) (m : Memory) :
    Fits width height (getModeInfo modeInfo mode m) ↔ InfoFits width height bytes := by
  have byte : ∀ i < 256, getModeInfo modeInfo mode m (VbeModeInfo + i) = bytes i := by
    intro i inside
    rw [getModeInfo, answer]
    exact storeBytes_inside bytes inside
  rw [Fits, InfoFits, load16, load16, byte 25 (by decide), byte 18 (by decide),
    byte 20 (by decide)]
  rw [show VbeModeInfo + 18 + 1 = VbeModeInfo + 19 from rfl, byte 19 (by decide),
    show VbeModeInfo + 20 + 1 = VbeModeInfo + 21 from rfl, byte 21 (by decide)]

/-- The BIOS answers for the mode, and the answer does not fit. -/
def Misfits (modeInfo : ModeInfos) (width height mode : BitVec 16) : Prop :=
  mode ≠ 0xFFFF#16 ∧ ∃ bytes, modeInfo mode = some bytes ∧ ¬ InfoFits width height bytes

/-- The questions do not reach the words of a table that ends before the block. -/
theorem passesOver_of_table {s : ModeSearch} {modes tail : List (BitVec 16)}
    (table : ModesAt s.memory s.di.toNat (modes ++ tail))
    (short : s.di.toNat + 2 * (modes.length + tail.length) ≤ VbeModeInfo)
    (misfits : ∀ other ∈ modes, Misfits modeInfo width height other) :
    PassesOver modeInfo width height modes s ∧
      ModesAt (s.asked modeInfo modes).memory (s.asked modeInfo modes).di.toNat tail := by
  induction modes generalizing s with
  | nil => exact ⟨trivial, table⟩
  | cons mode modes inductionHypothesis =>
      rw [List.length_cons, VbeModeInfo] at short
      rcases misfits mode (List.mem_cons_self ..) with ⟨notEnd, bytes, answer, misfit⟩
      have position : (s.ask modeInfo mode).di.toNat = s.di.toNat + 2 := by
        show (s.di.toNat + 2) % 65536 = _
        omega
      have rest : ModesAt (s.ask modeInfo mode).memory (s.ask modeInfo mode).di.toNat
          (modes ++ tail) := by
        rw [position]
        refine ModesAt.changed table.2 (getModeInfo_changed mode s.memory) (Or.inl ?_)
        rw [List.length_append]
        omega
      rcases inductionHypothesis rest (by rw [position, VbeModeInfo]; omega)
        (fun other member => misfits other (List.mem_cons_of_mem mode member))
        with ⟨passed, last⟩
      exact ⟨⟨⟨table.1, notEnd, mt (fits_iff answer s.memory).mp misfit⟩, passed⟩, last⟩

theorem firstFit_of_table {s : ModeSearch} {modes rest : List (BitVec 16)}
    {mode : BitVec 16} {bytes : Nat → BitVec 8}
    (table : ModesAt s.memory s.di.toNat (modes ++ mode :: rest))
    (short : s.di.toNat + 2 * (modes.length + (rest.length + 1)) ≤ VbeModeInfo)
    (misfits : ∀ other ∈ modes, Misfits modeInfo width height other)
    (notEnd : mode ≠ 0xFFFF#16) (answer : modeInfo mode = some bytes)
    (fits : InfoFits width height bytes) :
    FirstFit modeInfo width height modes mode s := by
  rcases passesOver_of_table table short misfits with ⟨passed, last⟩
  exact ⟨passed, last.1, notEnd, (fits_iff answer _).mpr fits⟩

theorem currentModeInfo_answer {mode : BitVec 16} {bytes : Nat → BitVec 8}
    (answer : modeInfo mode = some bytes) (m : Memory) :
    currentModeInfo (getModeInfo modeInfo mode m) 0x8200 =
      (List.range 256).map bytes := by
  apply List.map_congr_left
  intro i member
  rw [getModeInfo, answer]
  exact storeBytes_inside bytes (List.mem_range.mp member)

variable {m : Memory} {modes rest : List (BitVec 16)} {mode : BitVec 16}
  {bytes : Nat → BitVec 8}

/-- The first mode of a list with a resolution, and the BIOS' answer for it. -/
structure FirstOf (modeInfo : ModeInfos) (width height : BitVec 16)
    (modes : List (BitVec 16)) (bytes : Nat → BitVec 8) : Prop where
  splits : ∃ before mode after, modes = before ++ mode :: after ∧
    (∀ other ∈ before, Misfits modeInfo width height other) ∧ mode ≠ 0xFFFF#16 ∧
      modeInfo mode = some bytes
  fits : InfoFits width height bytes

/-- The answer that a list of modes leads to: that for the first mode with 1024 by
768, and without such a mode that for the first one with 1280 by 1024. -/
def LeadsTo (modeInfo : ModeInfos) (modes : List (BitVec 16)) (bytes : Nat → BitVec 8) :
    Prop :=
  FirstOf modeInfo 1024 768 modes bytes ∨
    (∀ mode ∈ modes, Misfits modeInfo 1024 768 mode) ∧
      FirstOf modeInfo 1280 1024 modes bytes

variable {m : Memory} {modes : List (BitVec 16)} {bytes : Nat → BitVec 8}

/-- A search that starts at a table of at most 128 modes finds the first that
fits. -/
theorem FirstOf.firstFit (first : FirstOf modeInfo width height modes bytes)
    (table : ModesAt m VbeModeList (modes ++ [0xFFFF#16])) (short : modes.length ≤ 128) :
    ∃ before mode, FirstFit modeInfo width height before mode (.start m) ∧
      modeInfo mode = some bytes := by
  rcases first.splits with ⟨before, mode, after, rfl, misfits, notEnd, answer⟩
  rw [List.append_assoc, List.cons_append] at table
  refine ⟨before, mode, ?_, answer⟩
  refine firstFit_of_table table ?_ misfits notEnd answer first.fits
  simp only [List.length_append, List.length_cons, List.length_nil] at short ⊢
  show 0x8400 + _ ≤ 0x8502
  omega

/-- The block is the answer that the list in the table leads to. -/
theorem comesTo_of_table (table : ModesAt m VbeModeList (modes ++ [0xFFFF#16]))
    (short : modes.length ≤ 128) (leads : LeadsTo modeInfo modes bytes) :
    ComesTo modeInfo m ((List.range 256).map bytes) := by
  have room : VbeModeList + 2 * (modes.length + 1) ≤ VbeModeInfo := by
    show 0x8400 + _ ≤ 0x8502
    omega
  rcases leads with first | ⟨none, second⟩
  · rcases first.firstFit table short with ⟨before, mode, found, answer⟩
    exact ⟨mode, _, Or.inl ⟨before, found, rfl⟩, currentModeInfo_answer answer _⟩
  · rcases passesOver_of_table (s := .start m) table room none with ⟨passed, last⟩
    have kept : ModesAt ((ModeSearch.start m).asked modeInfo modes).memory VbeModeList
        (modes ++ [0xFFFF#16]) := by
      refine table.changed (asked_changed (.start m) modes) (Or.inl ?_)
      rw [List.length_append]
      exact room
    rcases second.firstFit kept short with ⟨before, mode, found, answer⟩
    exact ⟨mode, _, Or.inr ⟨modes, before, ⟨passed, last.1⟩, found, rfl⟩,
      currentModeInfo_answer answer _⟩

end Table

end Os88.Loader
