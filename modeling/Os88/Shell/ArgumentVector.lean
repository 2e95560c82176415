/-
Module: Os88.Shell.ArgumentVector
Purpose: When the tokenizer stays inside `argv` and fills its first row, and when
  a handler that takes `argv` for an array of pointers finds the tokens.
Trusted boundary: none
Main exports: StaysInside, staysInside_of_text, staysInside_iff, storedByte,
  PointsToTokens, SpellsAddresses, argvPointer_storeTokens, argvPointer_first,
  spellsAddresses_handled_iff, pointsToTokens_iff
-/
import Os88.Shell.Tokenizer

namespace Os88.Shell

open StringLib

variable {command : Buffer} {s : List (BitVec 8)}

/-! ## Writes inside the array -/

/-- No write leaves the array, and the string of row 0, which is compared with the
names of the commands, does not depend on what the stack held. -/
def StaysInside (command : Buffer) : Prop :=
  (∀ stack, ∃ stored, tokenLoop command command 0 0 0 stack = some stored) ∧
  ∃ token, ∀ stack argc argv,
    tokenLoop command command 0 0 0 stack = some (argc, argv) → text argv.toList = some token

theorem fits_tokensOf_iff (s : List (BitVec 8)) :
    Fits (tokensOf s) ↔
      s.countP isSeparator ≤ 32 ∧ ∀ token ∈ tokensOf s, token.length ≤ 31 := by
  rw [Fits, length_tokensOf]
  exact and_congr_right fun _ =>
    forall_congr' fun token => forall_congr' fun _ => Nat.lt_succ_iff

theorem staysInside_of_text (held : text command = some s) :
    StaysInside command ↔ 1 ≤ s.countP isSeparator ∧ s.countP isSeparator ≤ 32 ∧
      ∀ token ∈ tokensOf s, token.length ≤ 31 := by
  rw [← fits_tokensOf_iff, ← length_tokensOf]
  constructor
  · rintro ⟨inside, token, written⟩
    have fits : Fits (tokensOf s) := by
      rcases inside (Vector.replicate 1024 1#8) with ⟨stored, ran⟩
      by_contra crowded
      rw [tokenLoop_of_text held, if_neg crowded] at ran
      cases ran
    refine ⟨?_, fits⟩
    by_contra few
    have empty : tokensOf s = [] := List.length_eq_zero_iff.mp (by omega)
    have ran := tokenLoop_of_fits held fits (Vector.replicate 1024 1#8)
    rw [empty, storeTokens_nil] at ran
    have unterminated : text (Vector.replicate 1024 1#8).toList = none := by
      rw [Vector.toList_replicate, text, CString.text_eq_none_iff]
      exact fun member => absurd (List.eq_of_mem_replicate member) (by decide)
    rw [written _ _ _ ran] at unterminated
    cases unterminated
  · rintro ⟨several, fits⟩
    have ran := tokenLoop_of_fits held fits
    refine ⟨fun stack => ⟨_, ran stack⟩, (tokensOf s)[0], ?_⟩
    intro stack argc argv stored
    obtain ⟨-, rfl⟩ := Prod.mk.inj (Option.some.inj ((ran stack).symm.trans stored))
    have member : (tokensOf s)[0] ∈ tokensOf s := List.getElem_mem several
    have nulFree := nulFree_of_mem_tokensOf (CString.text_eq_some_iff.mp held).1 member
    exact text_row (by decide) (List.getElem?_eq_getElem several) (fits.2 _ member) nulFree stack

/-- The tokenizer stays inside `argv` and writes its first row exactly for the
commands with 1 to 32 separators and at most 31 characters in front of each. -/
theorem staysInside_iff {N : Nat} (shellBuffer : Vector (BitVec 8) N)
    (held : text shellBuffer.toList = some s) :
    StaysInside shellBuffer.toList ↔
      1 ≤ s.countP isSeparator ∧ s.countP isSeparator ≤ 32 ∧
        ∀ token ∈ tokensOf s, token.length ≤ 31 :=
  staysInside_of_text held

/-- A word of 32 characters, in a buffer of 34 bytes. -/
def longWord : Vector (BitVec 8) 34 :=
  ⟨(List.replicate 32 0x61#8 ++ [0x0A#8, 0#8]).toArray, by decide⟩

/-- Its terminator is written behind the row. -/
theorem longWord_leaves_row :
    text longWord.toList = some (List.replicate 32 0x61#8 ++ [0x0A#8]) ∧
      ¬ StaysInside longWord.toList := by
  have held : text longWord.toList = some (List.replicate 32 0x61#8 ++ [0x0A#8]) := by decide
  refine ⟨held, fun inside => ?_⟩
  rw [staysInside_of_text held] at inside
  exact absurd (inside.2.2 (List.replicate 32 0x61#8) (by decide)) (by decide)

/-- The line of a bare Enter. -/
theorem staysInside_iff_empty_line :
    text (#v[0x0A#8, 0#8] : Vector (BitVec 8) 2).toList = some [0x0A#8] ∧
      StaysInside (#v[0x0A#8, 0#8] : Vector (BitVec 8) 2).toList := by
  have held : text (#v[0x0A#8, 0#8] : Vector (BitVec 8) 2).toList = some [0x0A#8] := by decide
  exact ⟨held, (staysInside_iff #v[0x0A#8, 0#8] held).mpr ⟨by decide, by decide, by decide⟩⟩

/-! ## The argument vector of the handlers -/

/-- The byte at a position of the array: that of a token or its terminator, or the
one the stack held. -/
def storedByte (tokens : List Token) (stack : Argv) (i : Fin 1024) : BitVec 8 :=
  (cell tokens i.val).getD (stack.get i)

/-- For every argument the handlers load the address of the row in which its token
is stored; `base` is the address of the array. -/
def PointsToTokens (base : BitVec 32) (stack : Argv) (command : Buffer) : Prop :=
  ∀ argc argv, tokenLoop command command 0 0 0 stack = some (argc, argv) →
    ∀ i : Fin 256, i.val < argc → argvPointer argv i = base + BitVec.ofNat 32 (32 * i.val)

/-- The bytes that the line and the stack put where the pointers are read are those
of the addresses. -/
def SpellsAddresses (base : BitVec 32) (stack : Argv) (tokens : List Token) : Prop :=
  ∀ i : Fin 256, i.val < tokens.length → ∀ b : Fin 4,
    storedByte tokens stack ⟨4 * i.val + b.val, by omega⟩ =
      (base + BitVec.ofNat 32 (32 * i.val)).extractLsb' (8 * b.val) 8

/-- Four bytes make up a pointer. -/
theorem bytes_append_eq_iff (byte3 byte2 byte1 byte0 : BitVec 8)
    (pointer : BitVec (8 + 8 + 8 + 8)) :
    byte3 ++ byte2 ++ byte1 ++ byte0 = pointer ↔
      byte0 = pointer.extractLsb' 0 8 ∧ byte1 = pointer.extractLsb' 8 8 ∧
        byte2 = pointer.extractLsb' 16 8 ∧ byte3 = pointer.extractLsb' 24 8 := by
  constructor
  · rintro rfl
    refine ⟨?_, ?_, ?_, ?_⟩ <;>
    · apply BitVec.eq_of_getLsbD_eq
      intro k bound
      simp only [BitVec.getLsbD_append, BitVec.getLsbD_extractLsb', bound, decide_true,
        Bool.true_and]
      grind
  · rintro ⟨rfl, rfl, rfl, rfl⟩
    apply BitVec.eq_of_getLsbD_eq
    intro k bound
    simp only [BitVec.getLsbD_append, BitVec.getLsbD_extractLsb']
    grind

theorem argvPointer_eq_iff (argv : Argv) (i : Fin 256) (pointer : BitVec 32) :
    argvPointer argv i = pointer ↔
      ∀ b : Fin 4, argv[4 * i.val + b.val] = pointer.extractLsb' (8 * b.val) 8 := by
  refine (bytes_append_eq_iff _ _ _ _ pointer).trans ?_
  simp [Fin.forall_fin_succ]

/-- What a handler loads is spelled by the tokens and the stack. -/
theorem argvPointer_storeTokens (tokens : List Token) (stack : Argv) (i : Fin 256)
    (pointer : BitVec 32) :
    argvPointer (storeTokens tokens stack) i = pointer ↔
      ∀ b : Fin 4, storedByte tokens stack ⟨4 * i.val + b.val, by omega⟩ =
        pointer.extractLsb' (8 * b.val) 8 := by
  rw [argvPointer_eq_iff]
  apply forall_congr'
  intro b
  rw [getElem_storeTokens]
  rfl

/-- The first four letters of a word, taken for an address. -/
def lettersAt (word : Token) : BitVec 32 :=
  word.getD 3 0#8 ++ word.getD 2 0#8 ++ word.getD 1 0#8 ++ word.getD 0 0#8

section FirstToken

variable {base : BitVec 32} {stack : Argv} {tokens : List Token} {word : Token}

/-- The front of the array holds the first token and its terminator. -/
theorem storedByte_first (first : tokens[0]? = some word) {i : Nat} (inside : i ≤ word.length)
    (row : i < 32) (stack : Argv) :
    storedByte tokens stack ⟨i, by omega⟩ = (word ++ [0#8]).getD i 0#8 := by
  have held : i < (word ++ [0#8]).length := by
    rw [List.length_append, List.length_singleton]
    omega
  have column : cell tokens i = (word ++ [0#8])[i]? := by
    rw [cell, show i / 32 = 0 by omega, first, show i % 32 = i by omega]
    rfl
  rw [storedByte, column, List.getD_eq_getElem?_getD, List.getElem?_eq_getElem held]
  rfl

/-- The first argument is the first word of the line, taken for an address. -/
theorem argvPointer_first (first : tokens[0]? = some word) (long : 4 ≤ word.length)
    (stack : Argv) : argvPointer (storeTokens tokens stack) 0 = lettersAt word := by
  have letter : ∀ b : Fin 4, storedByte tokens stack ⟨b.val, by omega⟩ = word.getD b.val 0#8 := by
    intro b
    rw [storedByte_first first (by omega) (by omega), List.getD_eq_getElem?_getD,
      List.getElem?_append_left (by omega), ← List.getD_eq_getElem?_getD]
  rw [argvPointer_storeTokens]
  intro b
  simp only [Fin.val_zero, Nat.mul_zero, Nat.zero_add, letter]
  have spelled := (bytes_append_eq_iff (word.getD 3 0#8) (word.getD 2 0#8) (word.getD 1 0#8)
    (word.getD 0 0#8) (lettersAt word)).mp rfl
  revert b
  simpa [Fin.forall_fin_succ] using spelled

/-- On a line that calls a handler with arguments these addresses are spelled only when
the line is that one word, and the array lies where its first letters say. -/
theorem spellsAddresses_handled_iff (handled : word = bytes "test" ∨ word = bytes "color")
    (first : tokens[0]? = some word) :
    SpellsAddresses base stack tokens ↔ tokens.length = 1 ∧ base = lettersAt word := by
  have long : 4 ≤ word.length := by rcases handled with rfl | rfl <;> decide
  have stored : 0 < tokens.length := (List.getElem?_eq_some_iff.mp first).1
  have address : base + BitVec.ofNat 32 (32 * (0 : Fin 256).val) = base := BitVec.add_zero base
  have atFirst := argvPointer_storeTokens tokens stack 0
    (base + BitVec.ofNat 32 (32 * (0 : Fin 256).val))
  rw [argvPointer_first first long, address] at atFirst
  constructor
  · intro spells
    have letters := atFirst.mpr (by simpa only [address] using spells 0 stored)
    refine ⟨?_, letters.symm⟩
    by_contra single
    -- the low byte of the second address is not the one behind the four letters
    have low := spells 1 (by show 1 < _; omega) 0
    have behind := storedByte_first first long (by decide) stack
    rw [← letters] at low
    rcases handled with rfl | rfl
    · exact absurd (behind.symm.trans low) (by decide)
    · exact absurd (behind.symm.trans low) (by decide)
  · rintro ⟨single, rfl⟩ i below
    obtain rfl : i = 0 := Fin.ext (by rw [single] at below; exact Nat.lt_one_iff.mp below)
    simpa only [address] using atFirst.mp rfl

end FirstToken

/-- The handlers find the tokens of an accepted line exactly when the bytes of the
line and the stack, where they read pointers, spell the addresses of the rows.  On the
lines that call them this takes a single word and an array at the address that its
first four letters spell. -/
theorem pointsToTokens_iff {base : BitVec 32} {stack : Argv} (held : text command = some s)
    (accepted : Fits (tokensOf s)) :
    (PointsToTokens base stack command ↔ SpellsAddresses base stack (tokensOf s)) ∧
      ∀ word, word = bytes "test" ∨ word = bytes "color" → (tokensOf s)[0]? = some word →
        (PointsToTokens base stack command ↔
          (tokensOf s).length = 1 ∧ base = lettersAt word) := by
  have ran := tokenLoop_of_fits held accepted stack
  have spelled : PointsToTokens base stack command ↔
      SpellsAddresses base stack (tokensOf s) := by
    constructor
    · intro points i below
      exact (argvPointer_storeTokens _ _ _ _).mp (points _ _ ran i below)
    · intro spells argc argv stored i below
      obtain ⟨rfl, rfl⟩ := Prod.mk.inj (Option.some.inj (ran.symm.trans stored))
      exact (argvPointer_storeTokens _ _ _ _).mpr (spells i below)
  exact ⟨spelled, fun word handled first =>
    spelled.trans (spellsAddresses_handled_iff handled first)⟩

/-- The line "test", stored in an array at the address `0x00105000`. -/
theorem test_line_not_found :
    text (bytes "test" ++ [0x0A#8, 0#8]) = some (bytes "test" ++ [0x0A#8]) ∧
      Fits (tokensOf (bytes "test" ++ [0x0A#8])) ∧
      ¬ PointsToTokens 0x00105000#32 (Vector.replicate 1024 0#8)
        (bytes "test" ++ [0x0A#8, 0#8]) := by
  have held : text (bytes "test" ++ [0x0A#8, 0#8]) = some (bytes "test" ++ [0x0A#8]) := by
    decide
  have accepted : Fits (tokensOf (bytes "test" ++ [0x0A#8])) := by decide
  have first : (tokensOf (bytes "test" ++ [0x0A#8]))[0]? = some (bytes "test") := by decide
  refine ⟨held, accepted, fun points => ?_⟩
  have ran := tokenLoop_of_fits held accepted (Vector.replicate 1024 0#8)
  have loaded := points _ _ ran 0 (by decide)
  rw [argvPointer_first first (by decide)] at loaded
  exact absurd loaded (by decide)

/-- The line "test", in an array at the address that these letters spell. -/
theorem pointsToTokens_iff_test :
    text (bytes "test" ++ [0x0A#8, 0#8]) = some (bytes "test" ++ [0x0A#8]) ∧
      Fits (tokensOf (bytes "test" ++ [0x0A#8])) ∧
      PointsToTokens 0x74736574#32 (Vector.replicate 1024 0#8)
        (bytes "test" ++ [0x0A#8, 0#8]) := by
  have held : text (bytes "test" ++ [0x0A#8, 0#8]) = some (bytes "test" ++ [0x0A#8]) := by
    decide
  have accepted : Fits (tokensOf (bytes "test" ++ [0x0A#8])) := by decide
  exact ⟨held, accepted, ((pointsToTokens_iff held accepted).2 (bytes "test") (Or.inl rfl)
    (by decide)).mpr (by decide)⟩

end Os88.Shell
