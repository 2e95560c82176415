/-
Module: Os88.StringLib.Cutting
Purpose: The two functions that cut a string inside its buffer: `strsplit` at
  every delimiter, and `str_backspace` at the last one.
Trusted boundary: none
Main exports: strsplit_of_text, getElem?_split, firstPiece_of_strings,
  secondPiece_of_strings, strsplit_exact, LastBefore, CutsBack, exists_lastBefore, strBackspace_nil,
  strBackspace_single, cutsBack_of_long, not_cutsBack_nil, cutsBack_iff
-/
import Os88.StringLib.Functions

namespace Os88.StringLib

variable {str : Buffer} {s : List (BitVec 8)}

/-! ## Splitting at every delimiter -/

/-- `strsplit` on a buffer that holds a string. -/
theorem strsplit_of_text (delim : BitVec 8) (held : text str = some s) :
    ∃ rest, str = s ++ 0#8 :: rest ∧
      strsplit str delim = some ((s.splitOn delim).length,
        s.map (fun ch => if ch = delim then 0#8 else ch) ++ 0#8 :: rest) := by
  rcases CString.text_eq_some_iff.mp held with ⟨nulFree, rest, rfl⟩
  refine ⟨rest, rfl, ?_⟩
  rw [strsplit_of_nulFree delim nulFree, Pieces.length_splitOn]

/-- Only the delimiters inside the string are replaced. -/
theorem getElem?_split (delim : BitVec 8) (s rest : Buffer) (i : Nat) :
    (s.map (fun ch => if ch = delim then 0#8 else ch) ++ rest)[i]? =
      if i < s.length ∧ (s ++ rest)[i]? = some delim then some 0#8 else (s ++ rest)[i]? := by
  by_cases inside : i < s.length
  · rw [List.getElem?_append_left (by simpa using inside), List.getElem?_map,
      List.getElem?_append_left inside, List.getElem?_eq_getElem inside]
    by_cases found : s[i] = delim
    · simp [found, inside]
    · simp [found]
  · rw [if_neg fun both => inside both.1, List.getElem?_append_right (by simpa using inside),
      List.getElem?_append_right (by omega), List.length_map]

/-- The string at the start is the first of those that are read. -/
theorem firstPiece_of_strings {n : Nat} {first : List (BitVec 8)}
    {others : List (List (BitVec 8))}
    (read : CString.strings 0#8 n str = some (first :: others)) : text str = some first := by
  cases n with
  | zero => cases read
  | succ n =>
      rcases Option.bind_eq_some_iff.mp read with ⟨head, heldHead, tail⟩
      rcases Option.map_eq_some_iff.mp tail with ⟨rest, -, same⟩
      obtain ⟨rfl, -⟩ := List.cons.inj same
      exact heldHead

/-- Reading a second string starts behind the terminator of the first. -/
theorem secondPiece_of_strings {n : Nat} {first second : List (BitVec 8)}
    {others : List (List (BitVec 8))}
    (read : CString.strings 0#8 n str = some (first :: second :: others)) :
    text str = some first ∧ text (str.drop (first.length + 1)) = some second := by
  cases n with
  | zero => cases read
  | succ n =>
      rcases Option.bind_eq_some_iff.mp read with ⟨head, heldHead, tail⟩
      rcases Option.map_eq_some_iff.mp tail with ⟨rest, readRest, same⟩
      obtain ⟨rfl, rfl⟩ := List.cons.inj same
      cases n with
      | zero => cases readRest
      | succ n =>
          rcases Option.bind_eq_some_iff.mp readRest with ⟨next, heldNext, tail⟩
          rcases Option.map_eq_some_iff.mp tail with ⟨_, -, same⟩
          obtain ⟨rfl, -⟩ := List.cons.inj same
          exact ⟨heldHead, heldNext⟩

/-- `strsplit` turns the delimiters of the string into terminators, nothing
else; the strings then read are its pieces, and an argument pointer behind the
first of them is the second. -/
theorem strsplit_exact (delim : BitVec 8) (held : text str = some s) :
    ∃ n str', strsplit str delim = some (n, str') ∧ str'.length = str.length ∧
      (∀ i, str'[i]? =
        if i < s.length ∧ str[i]? = some delim then some 0#8 else str[i]?) ∧
      CString.strings 0#8 n str' = some (s.splitOn delim) ∧
      (∀ piece ∈ s.splitOn delim, delim ∉ piece) ∧
      [delim].intercalate (s.splitOn delim) = s ∧
      (2 ≤ n → ∃ length second, strlen str' = some length ∧
        text (str'.drop (length + 1)) = some second ∧ (s.splitOn delim)[1]? = some second ∧
        length + 1 + second.length ≤ s.length) := by
  have nulFree := (CString.text_eq_some_iff.mp held).1
  rcases strsplit_of_text delim held with ⟨rest, rfl, ran⟩
  have read := @CString.strings_of_split _ _ 0#8 s delim nulFree rest
  refine ⟨_, _, ran, by simp, getElem?_split delim s _, read,
    fun piece member => Pieces.not_mem_of_mem_splitOn member,
    List.intercalate_splitOn delim, ?_⟩
  intro several
  rcases split : s.splitOn delim with _ | ⟨first, _ | ⟨second, others⟩⟩
  · simp [split] at several
  · simp [split] at several
  · rw [split] at read
    rcases secondPiece_of_strings read with ⟨heldFirst, heldSecond⟩
    exact ⟨first.length, second, strlen_of_text heldFirst, heldSecond, rfl,
      Pieces.two_pieces_length_le split⟩

/-- A line with an empty piece in the middle. -/
theorem strsplit_exact_empty_piece :
    text [0x63#8, 0x20#8, 0x20#8, 0x62#8, 0#8] = some [0x63#8, 0x20#8, 0x20#8, 0x62#8] ∧
    ∃ n str', strsplit [0x63#8, 0x20#8, 0x20#8, 0x62#8, 0#8] 0x20#8 = some (n, str') ∧
      CString.strings 0#8 n str' = some [[0x63#8], [], [0x62#8]] := by
  have held : text [0x63#8, 0x20#8, 0x20#8, 0x62#8, 0#8] =
      some [0x63#8, 0x20#8, 0x20#8, 0x62#8] := by decide
  rcases strsplit_exact 0x20#8 held with ⟨n, str', ran, -, -, read, -⟩
  exact ⟨held, n, str', ran, read⟩

/-! ## Cutting back to a separator -/

/-- `i` is the last occurrence of `c` in front of the last byte. -/
structure LastBefore (s : List (BitVec 8)) (c : BitVec 8) (i : Nat) : Prop where
  inside : i + 1 < s.length
  found : s[i]? = some c
  last : ∀ j, i < j → j + 1 < s.length → s[j]? ≠ some c

/-- `str_backspace` cuts the string behind that occurrence and returns 1, or, if
there is none, leaves it and returns 0, whatever lies behind the string. -/
def CutsBack (s : List (BitVec 8)) (c : BitVec 8) : Prop :=
  ∀ rest : Buffer,
    (∀ i, LastBefore s c i → strBackspace (s ++ 0#8 :: rest) c =
      some (some 1#32, (s ++ 0#8 :: rest).set (i + 1) 0#8)) ∧
    ((∀ i, i + 1 < s.length → s[i]? ≠ some c) →
      strBackspace (s ++ 0#8 :: rest) c = some (some 0#32, s ++ 0#8 :: rest))

/-- Of the occurrences in front of the last byte one is the last. -/
theorem exists_lastBefore {c : BitVec 8} {i : Nat} (inside : i + 1 < s.length)
    (found : s[i]? = some c) : ∃ j, LastBefore s c j := by
  by_cases later : ∃ j, i < j ∧ j + 1 < s.length ∧ s[j]? = some c
  · rcases later with ⟨j, behind, insideJ, foundJ⟩
    exact exists_lastBefore insideJ foundJ
  · exact ⟨i, inside, found, fun j behind insideJ foundJ => later ⟨j, behind, insideJ, foundJ⟩⟩
termination_by s.length - i

/-- On the empty string the index wraps around to `2 ^ 32 - 2`. -/
theorem strBackspace_nil (c : BitVec 8) : strBackspace [0#8] c = none := rfl

/-- A string of one byte makes no pass of the loop, and the function ends
without a `return`. -/
theorem strBackspace_single {ch : BitVec 8} (present : ch ≠ 0#8) (c : BitVec 8)
    (rest : Buffer) :
    strBackspace (ch :: 0#8 :: rest) c = some (none, ch :: 0#8 :: rest) := by
  have length : strlen (ch :: 0#8 :: rest) = some 1 := by simp [strlen, present]
  rw [strBackspace, length]
  rfl

section Backspace

variable {c : BitVec 8}

theorem not_cutsBack_nil : ¬ CutsBack [] c := by
  intro cuts
  have left := (cuts []).2 (by simp)
  rw [List.nil_append, strBackspace_nil] at left
  cases left

theorem not_cutsBack_single {ch : BitVec 8} (present : ch ≠ 0#8) : ¬ CutsBack [ch] c := by
  intro cuts
  have left := (cuts []).2 (by simp)
  rw [List.singleton_append, strBackspace_single present] at left
  simp at left

/-- A string of two bytes or more is cut back exactly when the byte in front of
the last one decides the matter. -/
theorem cutsBack_of_long (nulFree : 0#8 ∉ s) (long : 2 ≤ s.length) (small : s.length < 2 ^ 32) :
    CutsBack s c ↔
      s[s.length - 2]? = some c ∨ ∀ i, i + 1 < s.length → s[i]? ≠ some c := by
  have position : s.length - 2 < s.length := by omega
  have before := List.getElem?_eq_getElem position
  have ran := fun rest => strBackspace_of_long (c := c)
    (CString.text_append_nul nulFree rest) long small before
  constructor
  · intro cuts
    by_cases found : s[s.length - 2]? = some c
    · exact Or.inl found
    · right
      intro i inside occurs
      rcases exists_lastBefore inside occurs with ⟨j, last⟩
      have cut := (cuts []).1 j last
      have other : s[s.length - 2] ≠ c := fun same => found (by rw [before, same])
      rw [ran [], if_neg other] at cut
      simp at cut
  · rintro (found | absent) rest
    · have same : s[s.length - 2] = c := Option.some.inj (before.symm.trans found)
      refine ⟨?_, fun absent => absurd found (absent _ (by omega))⟩
      intro i last
      have here : i = s.length - 2 := by
        by_contra elsewhere
        have inside := last.inside
        exact last.last (s.length - 2) (by omega) (by omega) found
      rw [ran rest, if_pos same, here, show s.length - 2 + 1 = s.length - 1 by omega]
    · refine ⟨fun i last => absurd last.found (absent i last.inside), fun _ => ?_⟩
      have other : s[s.length - 2] ≠ c :=
        fun same => absent (s.length - 2) (by omega) (by rw [before, same])
      rw [ran rest, if_neg other]

/-- `str_backspace` cuts back to the previous separator exactly when the string
has two bytes or more, and the byte in front of the last one is the separator or
none of the bytes in front of the last one is. -/
theorem cutsBack_iff (nulFree : 0#8 ∉ s) (small : s.length < 2 ^ 32) :
    CutsBack s c ↔ 2 ≤ s.length ∧
      (s[s.length - 2]? = some c ∨ ∀ i, i + 1 < s.length → s[i]? ≠ some c) := by
  rcases s with _ | ⟨ch, _ | ⟨second, s⟩⟩
  · exact iff_of_false not_cutsBack_nil fun long => absurd long.1 (by decide)
  · have present : ch ≠ 0#8 := fun zero => nulFree (by simp [zero])
    exact iff_of_false (not_cutsBack_single present) fun long => absurd long.1 (by simp)
  · have long : 2 ≤ (ch :: second :: s).length := by simp
    rw [cutsBack_of_long nulFree long small]
    exact (and_iff_right long).symm

end Backspace

/-- In the path "/a1/" the byte looked at is the "1", and the function gives up. -/
theorem path_not_cutBack : ¬ CutsBack [0x2F#8, 0x61#8, 0x31#8, 0x2F#8] 0x2F#8 := by
  rw [cutsBack_of_long (by decide) (by decide) (by decide)]
  rintro (found | absent)
  · simp at found
  · exact absent 0 (by decide) rfl

/-- A path "a/b" that ends one byte behind the separator. -/
theorem cutsBack_iff_short_name :
    0#8 ∉ [0x61#8, 0x2F#8, 0x62#8] ∧ [0x61#8, 0x2F#8, 0x62#8].length < 2 ^ 32 ∧
      CutsBack [0x61#8, 0x2F#8, 0x62#8] 0x2F#8 :=
  ⟨by decide, by decide, (cutsBack_iff (by decide) (by decide)).mpr ⟨by decide, Or.inl rfl⟩⟩

end Os88.StringLib
