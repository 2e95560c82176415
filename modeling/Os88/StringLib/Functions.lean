/-
Module: Os88.StringLib.Functions
Purpose: The functions of lib/string.c over buffers of bytes, and what they do
  on buffers that hold a string.
Trusted boundary: `memcpy` follows its documented behaviour.
Main exports: bytes, literal, strlen, strcmp, atoi, strBackspace, strsplit, memcpy
-/
import Mathlib.Algebra.Group.Nat.Defs
import Os88.Library.CString

namespace Os88.StringLib

/-- A pointer is the list of the bytes from it to the end of its object;
reading or writing past that end is a fault. -/
abbrev Buffer := List (BitVec 8)

/-- The string a buffer holds. -/
abbrev text (str : Buffer) : Option (List (BitVec 8)) :=
  CString.text 0#8 str

/-- The bytes of a string literal, without its terminator. -/
def bytes (literal : String) : List (BitVec 8) :=
  literal.toList.map fun ch => BitVec.ofNat 8 ch.toNat

/-- The array of a string literal. -/
def literal (word : List (BitVec 8)) : Buffer := word ++ [0#8]

def strlen : Buffer → Option Nat
  | [] => none
  | ch :: rest => if ch = 0#8 then some 0 else (strlen rest).map (· + 1)

/-- The result is a `size_t`: the difference of the first bytes that differ. -/
def strcmp : Buffer → Buffer → Option (BitVec 32)
  | ch1 :: rest1, ch2 :: rest2 =>
      let res := ch1.setWidth 32 - ch2.setWidth 32
      if res ≠ 0#32 ∨ ch2 = 0#8 then some res else strcmp rest1 rest2
  | _, _ => none

/-- The loop of `atoi` with its accumulator `k`; `char` is signed. -/
def atoiLoop (k : BitVec 32) : Buffer → Option (BitVec 32)
  | [] => none
  | ch :: rest =>
      if ch = 0#8 then some k
      else atoiLoop ((k <<< 3) + (k <<< 1) + ch.signExtend 32 - 0x30) rest

def atoi (str : Buffer) : Option (BitVec 32) := atoiLoop 0 str

/-- Store one byte. -/
def store (str : Buffer) (i : Nat) (ch : BitVec 8) : Option Buffer :=
  if i < str.length then some (str.set i ch) else none

/-- The value returned, or `none` for the end of the function without a
`return`, and the buffer.  The loop never comes to a second pass: the first one
returns in both branches. -/
def strBackspace (str : Buffer) (c : BitVec 8) :
    Option (Option (BitVec 32) × Buffer) := do
  let length ← strlen str
  let i := BitVec.ofNat 32 length - 1#32
  if i = 0#32 then return (none, str)
  else
    let i := i - 1#32
    let ch ← str[i.toNat]?
    if ch = c then
      let str ← store str (i + 1#32).toNat 0#8
      return (some 1#32, str)
    else return (some 0#32, str)

/-- The loop of `strsplit`: the number of delimiters it replaces, and the
buffer. -/
def strsplitLoop (delim : BitVec 8) : Buffer → Option (Nat × Buffer)
  | [] => none
  | ch :: rest =>
      if ch = 0#8 then some (0, ch :: rest)
      else (strsplitLoop delim rest).map fun (n, rest) =>
        if ch = delim then (n + 1, 0 :: rest) else (n, ch :: rest)

def strsplit (str : Buffer) (delim : BitVec 8) : Option (Nat × Buffer) :=
  (strsplitLoop delim str).map fun (n, str) => (n + 1, str)

/-- `memcpy(dst + offset, src, n)` -/
def memcpy (dst : Buffer) (offset : Nat) (src : Buffer) (n : Nat) :
    Option Buffer :=
  if offset + n ≤ dst.length ∧ n ≤ src.length then
    some (dst.take offset ++ src.take n ++ dst.drop (offset + n))
  else none

/-! ## On buffers that hold a string -/

section Strings

variable {str str1 str2 : Buffer} {s s1 s2 : List (BitVec 8)}

theorem strlen_of_text (held : text str = some s) :
    strlen str = some s.length := by
  induction str generalizing s with
  | nil => cases held
  | cons ch rest inductionHypothesis =>
      by_cases ended : ch = 0#8
      · subst ended
        rw [text, CString.text_nul] at held
        obtain rfl := Option.some.inj held
        rfl
      · rw [text, CString.text_cons ended] at held
        rcases Option.map_eq_some_iff.mp held with ⟨tail, heldTail, rfl⟩
        rw [strlen, if_neg ended, inductionHypothesis heldTail]
        rfl

theorem atoi_of_text (held : text str = some s) : ∃ v, atoi str = some v := by
  have loop : ∀ k, ∃ v, atoiLoop k str = some v := by
    induction str generalizing s with
    | nil => cases held
    | cons ch rest inductionHypothesis =>
        intro k
        by_cases ended : ch = 0#8
        · exact ⟨k, by rw [atoiLoop, if_pos ended]⟩
        · rw [text, CString.text_cons ended] at held
          rcases Option.map_eq_some_iff.mp held with ⟨tail, heldTail, -⟩
          rw [atoiLoop, if_neg ended]
          exact inductionHypothesis heldTail _
  exact loop 0

/-- The difference of two bytes is zero exactly when they are equal. -/
theorem byte_sub_eq_zero_iff (ch1 ch2 : BitVec 8) :
    ch1.setWidth 32 - ch2.setWidth 32 = 0#32 ↔ ch1 = ch2 := by
  constructor
  · intro same
    have values := congrArg BitVec.toNat same
    simp only [BitVec.toNat_sub, BitVec.toNat_setWidth, BitVec.toNat_ofNat] at values
    apply BitVec.eq_of_toNat_eq
    have bound1 := ch1.isLt
    have bound2 := ch2.isLt
    omega
  · rintro rfl
    exact BitVec.sub_self _

/-- The string of a buffer by its first byte. -/
theorem text_cons_cases {ch : BitVec 8} {rest : Buffer}
    (held : text (ch :: rest) = some s) :
    (ch = 0#8 ∧ s = []) ∨
      (ch ≠ 0#8 ∧ ∃ tail, text rest = some tail ∧ s = ch :: tail) := by
  by_cases ended : ch = 0#8
  · subst ended
    rw [text, CString.text_nul] at held
    exact Or.inl ⟨rfl, (Option.some.inj held).symm⟩
  · rw [text, CString.text_cons ended] at held
    rcases Option.map_eq_some_iff.mp held with ⟨tail, heldTail, rfl⟩
    exact Or.inr ⟨ended, tail, heldTail, rfl⟩

/-- Buffers that hold the same string start with the same byte. -/
theorem head_eq_of_text {ch1 ch2 : BitVec 8} {rest1 rest2 : Buffer}
    (held1 : text (ch1 :: rest1) = some s)
    (held2 : text (ch2 :: rest2) = some s) : ch1 = ch2 := by
  rcases text_cons_cases held1 with ⟨rfl, rfl⟩ | ⟨-, tail1, -, rfl⟩
  · rcases text_cons_cases held2 with ⟨rfl, -⟩ | ⟨-, tail2, -, impossible⟩
    · rfl
    · cases impossible
  · rcases text_cons_cases held2 with ⟨-, impossible⟩ | ⟨-, tail2, -, heads⟩
    · cases impossible
    · exact (List.cons.inj heads).1

/-- `strcmp` returns within the two strings, and 0 exactly when they are
equal. -/
theorem strcmp_of_text (held1 : text str1 = some s1)
    (held2 : text str2 = some s2) :
    ∃ res, strcmp str1 str2 = some res ∧ (res = 0#32 ↔ s1 = s2) := by
  induction str1 generalizing str2 s1 s2 with
  | nil => cases held1
  | cons ch1 rest1 inductionHypothesis =>
      cases str2 with
      | nil => cases held2
      | cons ch2 rest2 =>
          by_cases same : ch1 = ch2
          · subst same
            rcases text_cons_cases held1 with ⟨rfl, rfl⟩ | ⟨present, tail1, heldTail1, rfl⟩
            · rcases text_cons_cases held2 with ⟨-, rfl⟩ | ⟨present, -⟩
              · exact ⟨0#32, by simp [strcmp], by simp⟩
              · exact absurd rfl present
            · rcases text_cons_cases held2 with ⟨ended, -⟩ | ⟨-, tail2, heldTail2, rfl⟩
              · exact absurd ended present
              · rcases inductionHypothesis heldTail1 heldTail2 with ⟨res, compared, zero⟩
                refine ⟨res, ?_, by simp [zero]⟩
                rw [strcmp, if_neg (by simp [present]), compared]
          · have differ : ch1.setWidth 32 - ch2.setWidth 32 ≠ 0#32 :=
              fun zero => same ((byte_sub_eq_zero_iff ch1 ch2).mp zero)
            refine ⟨_, by rw [strcmp, if_pos (Or.inl differ)], ?_⟩
            constructor
            · intro zero
              exact absurd zero differ
            · rintro rfl
              exact absurd (head_eq_of_text held1 held2) same

/-- A line that is not the word differs from it, be it terminated or not. -/
theorem strcmp_other_line {word line : List (BitVec 8)} {newline : BitVec 8}
    (wordFree : 0#8 ∉ word) (wordLine : newline ∉ word) (oneLine : newline ∉ line)
    (other : line ≠ word) (rest : Buffer) :
    ∃ res, strcmp (literal (word ++ [newline])) (line ++ newline :: rest) = some res ∧
      res ≠ 0#32 := by
  have differ : ∀ {ch1 ch2 : BitVec 8} (rest1 rest2 : Buffer), ch1 ≠ ch2 →
      ∃ res, strcmp (ch1 :: rest1) (ch2 :: rest2) = some res ∧ res ≠ 0#32 := by
    intro ch1 ch2 rest1 rest2 ne
    have nonzero : ch1.setWidth 32 - ch2.setWidth 32 ≠ 0#32 :=
      fun zero => ne ((byte_sub_eq_zero_iff ch1 ch2).mp zero)
    exact ⟨_, by rw [strcmp, if_pos (Or.inl nonzero)], nonzero⟩
  induction word generalizing line with
  | nil =>
      cases line with
      | nil => exact absurd rfl other
      | cons ch line => exact differ _ _ fun same => oneLine (by simp [same])
  | cons first word inductionHypothesis =>
      have present : first ≠ 0#8 := fun zero => wordFree (by simp [zero])
      cases line with
      | nil => exact differ _ _ fun same => wordLine (by simp [same])
      | cons ch line =>
          by_cases same : first = ch
          · subst same
            have shorter : line ≠ word := fun equal => other (by rw [equal])
            rcases inductionHypothesis
                (fun member => wordFree (List.mem_cons_of_mem _ member))
                (fun member => wordLine (List.mem_cons_of_mem _ member))
                (fun member => oneLine (List.mem_cons_of_mem _ member)) shorter with
              ⟨res, compared, nonzero⟩
            refine ⟨res, ?_, nonzero⟩
            rw [literal, List.cons_append, List.cons_append, List.cons_append, strcmp,
              if_neg (by simp [present])]
            exact compared
          · exact differ _ _ same

/-- Bytes without the delimiter are left as they are. -/
theorem map_delim_of_not_mem {delim : BitVec 8} (absent : delim ∉ s) :
    s.map (fun ch => if ch = delim then 0#8 else ch) = s := by
  have same : ∀ ch ∈ s, (if ch = delim then 0#8 else ch) = id ch := by
    intro ch member
    have other : ch ≠ delim := fun found => absent (found ▸ member)
    exact if_neg other
  rw [List.map_congr_left same, List.map_id]

/-- Comparing a terminated word with a literal. -/
theorem strcmp_literal {word other : List (BitVec 8)} (otherFree : 0#8 ∉ other)
    (wordFree : 0#8 ∉ word) (after : Buffer) :
    ∃ res, strcmp (word ++ 0#8 :: after) (literal other) = some res ∧
      (res = 0#32 ↔ word = other) :=
  strcmp_of_text (CString.text_append_nul wordFree after)
    (CString.text_append_nul otherFree [])

/-- `strsplit` turns the delimiters into terminators and counts the pieces. -/
theorem strsplit_of_nulFree (delim : BitVec 8) (nulFree : 0#8 ∉ s)
    (rest : Buffer) :
    strsplit (s ++ 0#8 :: rest) delim =
      some (s.count delim + 1,
        s.map (fun ch => if ch = delim then 0#8 else ch) ++ 0#8 :: rest) := by
  have loop : strsplitLoop delim (s ++ 0#8 :: rest) =
      some (s.count delim,
        s.map (fun ch => if ch = delim then 0#8 else ch) ++ 0#8 :: rest) := by
    induction s with
    | nil => simp [strsplitLoop]
    | cons ch s inductionHypothesis =>
        have present : ch ≠ 0#8 := fun zero => nulFree (by simp [zero])
        have tail := inductionHypothesis fun member =>
          nulFree (List.mem_cons_of_mem ch member)
        rw [List.cons_append, strsplitLoop, if_neg present, tail]
        by_cases found : ch = delim
        · simp [found]
        · simp [found]
  rw [strsplit, loop]
  rfl

/-- On a string of two bytes or more `str_backspace` looks at one byte only, the
one before the last. -/
theorem strBackspace_of_long {c ch : BitVec 8} (held : text str = some s)
    (long : 2 ≤ s.length) (small : s.length < 2 ^ 32)
    (before : s[s.length - 2]? = some ch) :
    strBackspace str c =
      if ch = c then some (some 1#32, str.set (s.length - 1) 0#8)
      else some (some 0#32, str) := by
  have last : (BitVec.ofNat 32 s.length - 1#32).toNat = s.length - 1 := by
    simp only [BitVec.toNat_sub, BitVec.toNat_ofNat]
    omega
  have some_left : BitVec.ofNat 32 s.length - 1#32 ≠ 0#32 := by
    intro zero
    have value := congrArg BitVec.toNat zero
    rw [last] at value
    simp only [BitVec.toNat_ofNat] at value
    omega
  have position : (BitVec.ofNat 32 s.length - 1#32 - 1#32).toNat = s.length - 2 := by
    rw [BitVec.toNat_sub, last]
    simp only [BitVec.toNat_ofNat]
    omega
  have cut : (BitVec.ofNat 32 s.length - 1#32 - 1#32 + 1#32).toNat = s.length - 1 := by
    rw [BitVec.sub_add_cancel, last]
  rcases CString.text_eq_some_iff.mp held with ⟨-, rest, rfl⟩
  have read : (s ++ 0#8 :: rest)[s.length - 2]? = some ch := by
    rw [List.getElem?_append_left (by omega), before]
  have inside : s.length - 1 < (s ++ 0#8 :: rest).length := by
    simp only [List.length_append, List.length_cons]
    omega
  simp only [strBackspace, strlen_of_text held, Option.bind_eq_bind,
    Option.bind_some, some_left, if_false, position, read]
  by_cases found : ch = c
  · rw [if_pos found, if_pos found, cut, store, if_pos inside]
    rfl
  · rw [if_neg found, if_neg found]
    rfl

/-- Copying a piece over as many bytes. -/
theorem memcpy_piece {middle : Buffer} (before after piece more : Buffer)
    (length : middle.length = piece.length) :
    memcpy (before ++ middle ++ after) before.length (piece ++ more)
        piece.length = some (before ++ piece ++ after) := by
  have room : before.length + piece.length ≤ (before ++ middle ++ after).length ∧
      piece.length ≤ (piece ++ more).length := by
    simp [length]
  have skipped : (before ++ middle ++ after).drop (before.length + piece.length) =
      after := by
    rw [← length, ← List.length_append, List.drop_left]
  rw [memcpy, if_pos room, skipped, List.append_assoc before, List.take_left,
    List.take_left]

end Strings

end Os88.StringLib
