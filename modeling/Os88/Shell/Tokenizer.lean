/-
Module: Os88.Shell.Tokenizer
Purpose: What the tokenizer of the shell leaves in `argv`: the tokens that a
  separator ends, each terminated in a row of its own.
Trusted boundary: none
Main exports: isSeparator, tokensOf, Fits, cell, storeTokens, storeToken_outcome,
  tokenLoop_outcome, tokenLoop_of_fits, text_row, tokenLoop_splits
-/
import Os88.Shell.Model

namespace Os88.Shell

open Execution
open StringLib

abbrev Token := List (BitVec 8)

def isSeparator (ch : BitVec 8) : Bool := ch = 0x20#8 ∨ ch = 0x0A#8

/-- The texts that a separator ends. -/
def tokensOf (s : List (BitVec 8)) : List Token := Pieces.endedPieces isSeparator s

/-- The tokens have room in 32 rows of 32 bytes, terminators included. -/
def Fits (tokens : List Token) : Prop :=
  tokens.length ≤ 32 ∧ ∀ token ∈ tokens, token.length < 32

instance (tokens : List Token) : Decidable (Fits tokens) :=
  inferInstanceAs (Decidable (_ ∧ _))

/-- The byte that a token or its terminator puts at position `i` of the array. -/
def cell (tokens : List Token) (i : Nat) : Option (BitVec 8) :=
  tokens[i / 32]?.bind fun token => (token ++ [0#8])[i % 32]?

/-- The array with the tokens stored from row 0 on; the other bytes are those it
had before. -/
def storeTokens (tokens : List Token) (argv : Argv) : Argv :=
  Vector.ofFn fun i => (cell tokens i.val).getD argv[i]

/-- The array with some bytes written from a position on. -/
def putBytes (argv : Argv) (position : Nat) (written : List (BitVec 8)) : Argv :=
  Vector.ofFn fun i =>
    if position ≤ i.val then written.getD (i.val - position) argv[i] else argv[i]

/-! ## Storing one token -/

section Store

variable {argv : Argv}

theorem getElem_putBytes (argv : Argv) (position : Nat) (written : List (BitVec 8))
    {i : Nat} (inside : i < 1024) :
    (putBytes argv position written)[i] =
      if position ≤ i then written.getD (i - position) argv[i] else argv[i] := by
  simp [putBytes]

theorem getElem_storeTokens (tokens : List Token) (argv : Argv) {i : Nat}
    (inside : i < 1024) :
    (storeTokens tokens argv)[i] = (cell tokens i).getD argv[i] := by
  simp [storeTokens]

/-- A line without separators stores nothing. -/
theorem storeTokens_nil (stack : Argv) : storeTokens [] stack = stack := by
  apply Vector.ext
  intro i inside
  rw [getElem_storeTokens]
  rfl

theorem setArgv_inside {a b : Nat} (row : a < 32) (column : b < 32) (argv : Argv)
    (ch : BitVec 8) :
    setArgv argv a b ch = some (putBytes argv (32 * a + b) [ch]) := by
  rw [setArgv, dif_pos ⟨row, column⟩]
  refine congrArg some (Vector.ext fun i inside => ?_)
  rw [getElem_putBytes, Vector.getElem_set]
  by_cases here : 32 * a + b = i
  · simp [here]
  · rw [if_neg here]
    by_cases behind : 32 * a + b ≤ i
    · have position : i - (32 * a + b) = (i - (32 * a + b) - 1) + 1 := by omega
      rw [if_pos behind, position, List.getD_cons_succ, List.getD_nil]
    · rw [if_neg behind]

/-- Bytes written one behind the other. -/
theorem putBytes_cons (argv : Argv) (position : Nat) (ch : BitVec 8)
    (written : List (BitVec 8)) :
    putBytes (putBytes argv position [ch]) (position + 1) written =
      putBytes argv position (ch :: written) := by
  apply Vector.ext
  intro i inside
  simp only [getElem_putBytes]
  rcases Nat.lt_trichotomy i position with before | here | behind
  · rw [if_neg (by omega), if_neg (by omega), if_neg (by omega)]
  · subst here
    rw [if_neg (by omega), if_pos (by omega), if_pos (by omega), Nat.sub_self]
    rfl
  · have first : i - position = (i - (position + 1)) + 1 := by omega
    rw [if_pos (by omega), if_pos (by omega), if_pos (by omega), first,
      List.getD_cons_succ, List.getD_cons_succ, List.getD_nil]

/-- One pass of the copying loop. -/
def copyStep (command : Buffer) (argc i : Nat) : Nat × Argv → Option (Nat × Argv)
  | (j, argv) => do
      let ch ← command[i]?
      let argv ← setArgv argv argc j ch
      return (j + 1, argv)

theorem copyToken_eq (command : Buffer) (argc start current : Nat) (argv : Argv) :
    copyToken command argc start current argv =
      countLoop (copyStep command argc) start (current - start) (0, argv) := rfl

theorem copyStep_inside {command : Buffer} {i argc j : Nat} {ch : BitVec 8}
    (read : command[i]? = some ch) (row : argc < 32) (column : j < 32) (argv : Argv) :
    copyStep command argc i (j, argv) =
      some (j + 1, putBytes argv (32 * argc + j) [ch]) := by
  simp [copyStep, read, setArgv_inside row column]

theorem copyStep_outside {command : Buffer} {i argc j : Nat}
    (outside : ¬ (argc < 32 ∧ j < 32)) (argv : Argv) :
    copyStep command argc i (j, argv) = none := by
  simp [copyStep, setArgv, outside]

/-- Copying the rest of a token and terminating it. -/
theorem storeToken_outcome (token front more : List (BitVec 8)) (argc j : Nat) (argv : Argv) :
    ((countLoop (copyStep (front ++ token ++ more) argc) front.length token.length
        (j, argv)).bind fun (j, argv) => setArgv argv argc j 0#8) =
      if argc < 32 ∧ j + token.length < 32 then
        some (putBytes argv (32 * argc + j) (token ++ [0#8]))
      else none := by
  induction token generalizing front j argv with
  | nil =>
      rw [List.length_nil, Nat.add_zero, countLoop, Option.bind_some]
      show setArgv argv argc j 0#8 = _
      by_cases inside : argc < 32 ∧ j < 32
      · rw [if_pos inside, setArgv_inside inside.1 inside.2]
        rfl
      · rw [if_neg inside, setArgv, dif_neg inside]
  | cons ch token inductionHypothesis =>
      have read : (front ++ (ch :: token) ++ more)[front.length]? = some ch := by
        simp
      rw [List.length_cons, countLoop]
      by_cases inside : argc < 32 ∧ j < 32
      · have tail := inductionHypothesis (front ++ [ch]) (j + 1)
          (putBytes argv (32 * argc + j) [ch])
        have same : front ++ [ch] ++ token ++ more = front ++ (ch :: token) ++ more := by simp
        rw [same, List.length_append, List.length_singleton, ← Nat.add_assoc (32 * argc),
          putBytes_cons] at tail
        rw [copyStep_inside read inside.1 inside.2, Option.bind_some, tail,
          List.cons_append]
        simp only [Nat.add_assoc, Nat.add_comm 1]
      · rw [copyStep_outside inside, if_neg (by omega)]
        rfl

/-- A token stored in the next row. -/
theorem putBytes_row {token : Token} (short : token.length < 32) (done : List Token)
    (argv : Argv) :
    putBytes (storeTokens done argv) (32 * done.length) (token ++ [0#8]) =
      storeTokens (done ++ [token]) argv := by
  apply Vector.ext
  intro i inside
  rw [getElem_putBytes, getElem_storeTokens, getElem_storeTokens]
  rcases Nat.lt_trichotomy (i / 32) done.length with before | here | behind
  · rw [if_neg (by omega), cell, cell, List.getElem?_append_left before]
  · have column : i - 32 * done.length = i % 32 := by omega
    have unstored : cell done i = none := by
      rw [cell, List.getElem?_eq_none (by omega), Option.bind_none]
    rw [if_pos (by omega), unstored, cell, here, List.getElem?_append_right (Nat.le_refl _),
      Nat.sub_self, List.getElem?_cons_zero, Option.bind_some, column,
      List.getD_eq_getElem?_getD]
    rfl
  · have unstored : cell done i = none := by
      rw [cell, List.getElem?_eq_none (by omega), Option.bind_none]
    have other : cell (done ++ [token]) i = none := by
      rw [cell, List.getElem?_eq_none (by simp; omega), Option.bind_none]
    rw [if_pos (by omega), unstored, other, List.getD_eq_getElem?_getD,
      List.getElem?_eq_none (by simp; omega)]
    rfl

end Store

/-! ## The loop -/

theorem isSeparator_iff (ch : BitVec 8) :
    isSeparator ch = true ↔ ch = 0x20#8 ∨ ch = 0x0A#8 := by
  simp [isSeparator]

theorem fits_nil : Fits [] := ⟨Nat.zero_le _, by simp⟩

/-- Tokens with room have room without those stored last. -/
theorem Fits.left {first second : List Token} (fits : Fits (first ++ second)) : Fits first := by
  refine ⟨?_, fun token member => fits.2 token (List.mem_append_left second member)⟩
  have count := fits.1
  rw [List.length_append] at count
  omega

/-- Another token has room exactly when there is a row left and the token is short. -/
theorem fits_concat_iff {done : List Token} {token : Token} (fits : Fits done) :
    Fits (done ++ [token]) ↔ done.length < 32 ∧ token.length < 32 := by
  constructor
  · intro both
    have count := both.1
    rw [List.length_append, List.length_singleton] at count
    exact ⟨by omega, both.2 token (by simp)⟩
  · rintro ⟨row, short⟩
    refine ⟨by rw [List.length_append, List.length_singleton]; omega, ?_⟩
    intro other member
    rcases List.mem_append.mp member with earlier | last
    · exact fits.2 other earlier
    · rwa [List.mem_singleton.mp last]

section Loop

variable {command : Buffer} {s : List (BitVec 8)}

/-- A separator stores the text since the last one. -/
theorem tokenLoop_separator {done : List Token} (fits : Fits done) {ch : BitVec 8}
    (separates : isSeparator ch = true) (front token rest : List (BitVec 8)) (stack : Argv) :
    tokenLoop (front ++ token ++ ch :: rest) (ch :: rest) (front ++ token).length front.length
        done.length (storeTokens done stack) =
      if Fits (done ++ [token]) then
        tokenLoop (front ++ token ++ ch :: rest) rest (front ++ token ++ [ch]).length
          (front ++ token ++ [ch]).length (done ++ [token]).length
          (storeTokens (done ++ [token]) stack)
      else none := by
  have present : ch ≠ 0#8 := by
    rintro rfl
    cases separates
  have stored := storeToken_outcome token front (ch :: rest) done.length 0
    (storeTokens done stack)
  have span : (front ++ token).length - front.length = token.length := by simp
  have length : (front ++ token).length + 1 = (front ++ token ++ [ch]).length := by
    simp [Nat.add_assoc]
  have count : done.length + 1 = (done ++ [token]).length := by simp
  rw [Nat.zero_add, Nat.add_zero] at stored
  rw [tokenLoop, if_neg present, if_pos ((isSeparator_iff ch).mp separates), copyToken_eq, span,
    length, count]
  have next := congrArg (Option.bind · fun argv =>
    tokenLoop (front ++ token ++ ch :: rest) rest (front ++ token ++ [ch]).length
      (front ++ token ++ [ch]).length (done ++ [token]).length argv) stored
  rw [Option.bind_assoc] at next
  refine next.trans ?_
  by_cases room : done.length < 32 ∧ token.length < 32
  · rw [if_pos room, if_pos ((fits_concat_iff fits).mpr room), Option.bind_some,
      putBytes_row room.2]
  · rw [if_neg room, if_neg fun both => room ((fits_concat_iff fits).mp both)]
    rfl

/-- Any other character belongs to the text since the last separator. -/
theorem tokenLoop_character {ch : BitVec 8} (present : ch ≠ 0#8)
    (other : isSeparator ch = false) (front token rest : List (BitVec 8)) (argc : Nat)
    (argv : Argv) :
    tokenLoop (front ++ token ++ ch :: rest) (ch :: rest) (front ++ token).length front.length
        argc argv =
      tokenLoop (front ++ (token ++ [ch]) ++ rest) rest (front ++ (token ++ [ch])).length
        front.length argc argv := by
  have neither : ¬ (ch = 0x20#8 ∨ ch = 0x0A#8) := by
    rw [← isSeparator_iff, other]
    simp
  have length : (front ++ token).length + 1 = (front ++ (token ++ [ch])).length := by
    simp [Nat.add_assoc]
  have whole : front ++ token ++ ch :: rest = front ++ (token ++ [ch]) ++ rest := by simp
  rw [tokenLoop, if_neg present, if_neg neither, length, whole]

/-- The loop from any point on: the tokens stored so far, the text since the last
separator, and the text that is left. -/
theorem tokenLoop_outcome {done : List Token} {token : Token} (fits : Fits done)
    (free : ∀ ch ∈ token, isSeparator ch = false) (nulFree : 0#8 ∉ s)
    (front rest : List (BitVec 8)) (stack : Argv) :
    tokenLoop (front ++ token ++ (s ++ 0#8 :: rest)) (s ++ 0#8 :: rest)
        (front ++ token).length front.length done.length (storeTokens done stack) =
      if Fits (done ++ tokensOf (token ++ s)) then
        some ((done ++ tokensOf (token ++ s)).length,
          storeTokens (done ++ tokensOf (token ++ s)) stack)
      else none := by
  induction s generalizing done token front with
  | nil =>
      have none_left : tokensOf (token ++ []) = [] := by
        rw [List.append_nil]
        exact Pieces.endedPieces_of_separatorFree free
      rw [none_left, List.append_nil, if_pos fits, List.nil_append, tokenLoop, if_pos rfl]
  | cons ch s inductionHypothesis =>
      have present : ch ≠ 0#8 := fun zero => nulFree (by simp [zero])
      have absent : 0#8 ∉ s := fun member => nulFree (List.mem_cons_of_mem ch member)
      cases separates : isSeparator ch with
      | true =>
          have split : tokensOf (token ++ ch :: s) = token :: tokensOf s :=
            Pieces.endedPieces_first free separates s
          rw [List.cons_append, tokenLoop_separator fits separates, split]
          by_cases room : Fits (done ++ [token])
          · have tail := @inductionHypothesis (done ++ [token]) [] room (by simp) absent
              (front ++ token ++ [ch])
            simp only [List.append_nil, List.nil_append, List.append_assoc,
              List.singleton_append] at tail
            rw [if_pos room]
            simpa only [List.append_assoc, List.singleton_append] using tail
          · rw [if_neg room, if_neg]
            intro all
            rw [← List.singleton_append, ← List.append_assoc] at all
            exact room all.left
      | false =>
          have longer : ∀ other ∈ token ++ [ch], isSeparator other = false :=
            List.forall_mem_append.mpr ⟨free, by simpa using separates⟩
          have tail := @inductionHypothesis done (token ++ [ch]) fits longer absent front
          rw [List.cons_append, tokenLoop_character present separates, tail, List.append_assoc,
            List.singleton_append]

/-- The loop of `shell_interpreter` on a terminated command. -/
theorem tokenLoop_of_text (held : text command = some s) (stack : Argv) :
    tokenLoop command command 0 0 0 stack =
      if Fits (tokensOf s) then some ((tokensOf s).length, storeTokens (tokensOf s) stack)
      else none := by
  rcases CString.text_eq_some_iff.mp held with ⟨nulFree, rest, rfl⟩
  have run := @tokenLoop_outcome s [] [] fits_nil (by simp) nulFree [] rest stack
  rwa [storeTokens_nil] at run

/-- When the tokens have room they are stored. -/
theorem tokenLoop_of_fits (held : text command = some s) (fits : Fits (tokensOf s))
    (stack : Argv) :
    tokenLoop command command 0 0 0 stack =
      some ((tokensOf s).length, storeTokens (tokensOf s) stack) :=
  (tokenLoop_of_text held stack).trans (if_pos fits)

end Loop

/-! ## The rows -/

theorem length_tokensOf (s : List (BitVec 8)) : (tokensOf s).length = s.countP isSeparator :=
  Pieces.length_endedPieces isSeparator s

/-- The tokens of a string have no terminator in them. -/
theorem nulFree_of_mem_tokensOf {s : List (BitVec 8)} {token : Token} (nulFree : 0#8 ∉ s)
    (member : token ∈ tokensOf s) : 0#8 ∉ token :=
  fun zero => nulFree (Pieces.mem_endedPiece member _ zero).1

/-- A row holds its token. -/
theorem text_row {tokens : List Token} {token : Token} {k : Nat} (row : k < 32)
    (stored : tokens[k]? = some token) (short : token.length < 32) (nulFree : 0#8 ∉ token)
    (stack : Argv) :
    text ((storeTokens tokens stack).toList.drop (32 * k)) = some token := by
  have front : ((storeTokens tokens stack).toList.drop (32 * k)).take (token.length + 1) =
      token ++ [0#8] := by
    apply List.ext_getElem?
    intro j
    by_cases inside : j < token.length + 1
    · have place : 32 * k + j < 1024 := by omega
      have column : cell tokens (32 * k + j) = (token ++ [0#8])[j]? := by
        rw [cell, show (32 * k + j) / 32 = k by omega, stored, Option.bind_some,
          show (32 * k + j) % 32 = j by omega]
      rw [List.getElem?_take_of_lt inside, List.getElem?_drop, Vector.getElem?_toList,
        Vector.getElem?_eq_getElem place, getElem_storeTokens tokens stack place, column]
      have held : j < (token ++ [0#8]).length := by simpa using inside
      rw [List.getElem?_eq_getElem held]
      rfl
    · rw [List.getElem?_eq_none (by simp; omega), List.getElem?_eq_none (by simp; omega)]
  rw [← List.take_append_drop (token.length + 1)
    ((storeTokens tokens stack).toList.drop (32 * k)), front, List.append_assoc]
  exact CString.text_append_nul nulFree _

/-- The tokenizer splits at the separators and loses nothing: row `k` holds the
text between two separators, `argc` after the decrement is one less than their
number, and the rows of a whole line join to the line. -/
theorem tokenLoop_splits {command : Buffer} {s : List (BitVec 8)}
    (held : text command = some s) (few : s.countP isSeparator ≤ 32)
    (short : ∀ token ∈ tokensOf s, token.length ≤ 31) (stack : Argv) :
    ∃ argv rows, tokenLoop command command 0 0 0 stack =
        some (s.countP isSeparator, argv) ∧
      (∀ {N : Nat} (env : Surroundings) (shell : State N), env.stack shell.terminal = stack →
        shellInterpreter env command shell = do
          let found ← findCommand argv.toList [.test, .help, .color, .clear, .exit, .empty]
          let shell ← runCommand env found ((s.countP isSeparator : Int) - 1) argv shell
          return shellClear shell) ∧
      rows.length = s.countP isSeparator ∧
      (∀ k, k < s.countP isSeparator →
        rows[k]? = (s.splitOnP isSeparator)[k]? ∧
        text (argv.toList.drop (32 * k)) = rows[k]?) ∧
      (s.getLast? = some 0x0A#8 →
        (List.zipWith (fun token separator => token ++ [separator]) rows
          (s.filter isSeparator)).flatten = s) := by
  have fits : Fits (tokensOf s) := by
    refine ⟨by rwa [length_tokensOf], fun token member => ?_⟩
    exact Nat.lt_succ_of_le (short token member)
  have ran := tokenLoop_of_fits held fits stack
  rw [length_tokensOf] at ran
  refine ⟨_, tokensOf s, ran, ?_, length_tokensOf s, ?_, ?_⟩
  · rintro N env shell rfl
    rw [shellInterpreter, ran]
    simp only [Option.bind_eq_bind, Option.bind_some]
  · intro k below
    refine ⟨Pieces.endedPieces_getElem? below, ?_⟩
    have inside : k < (tokensOf s).length := by rwa [length_tokensOf]
    have stored := List.getElem?_eq_getElem inside
    have member : (tokensOf s)[k] ∈ tokensOf s := List.getElem_mem inside
    have nulFree := nulFree_of_mem_tokensOf (CString.text_eq_some_iff.mp held).1 member
    rw [stored]
    exact text_row (by omega) stored (fits.2 _ member) nulFree stack
  · intro last
    obtain ⟨front, rfl⟩ := List.getLast?_eq_some_iff.mp last
    exact Pieces.join_endedPieces (by decide) front

/-- A line with a doubled space, on a stack that holds other bytes. -/
theorem tokenLoop_splits_doubled_space :
    text [0x61#8, 0x20#8, 0x20#8, 0x62#8, 0x0A#8, 0#8] =
      some [0x61#8, 0x20#8, 0x20#8, 0x62#8, 0x0A#8] ∧
    [0x61#8, 0x20#8, 0x20#8, 0x62#8, 0x0A#8].countP isSeparator ≤ 32 ∧
    (∀ token ∈ tokensOf [0x61#8, 0x20#8, 0x20#8, 0x62#8, 0x0A#8], token.length ≤ 31) ∧
    ∃ argv, tokenLoop [0x61#8, 0x20#8, 0x20#8, 0x62#8, 0x0A#8, 0#8]
        [0x61#8, 0x20#8, 0x20#8, 0x62#8, 0x0A#8, 0#8] 0 0 0 (Vector.replicate 1024 0xAA#8) =
          some (3, argv) ∧
      text (argv.toList.drop 32) = some [] ∧ text (argv.toList.drop 64) = some [0x62#8] := by
  have held : text [0x61#8, 0x20#8, 0x20#8, 0x62#8, 0x0A#8, 0#8] =
      some [0x61#8, 0x20#8, 0x20#8, 0x62#8, 0x0A#8] := by decide
  have few : [0x61#8, 0x20#8, 0x20#8, 0x62#8, 0x0A#8].countP isSeparator ≤ 32 := by decide
  have short : ∀ token ∈ tokensOf [0x61#8, 0x20#8, 0x20#8, 0x62#8, 0x0A#8],
      token.length ≤ 31 := by decide
  rcases tokenLoop_splits held few short (Vector.replicate 1024 0xAA#8) with
    ⟨argv, rows, ran, -, -, stored, -⟩
  have second := stored 1 (by decide)
  have third := stored 2 (by decide)
  exact ⟨held, few, short, argv, ran, second.2.trans second.1, third.2.trans third.1⟩

end Os88.Shell
