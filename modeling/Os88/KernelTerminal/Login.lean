/-
Module: Os88.KernelTerminal.Login
Purpose: `__login` of kernel/main.c, one key after the other, and the lines
  that its keys stand for.
Trusted boundary: `malloc` returns a block of the size asked for, and `_kill`
  does not return.
Main exports: setByte, Login, loginKey, typedLines, PasswordGiven, Attempt,
  LinesFit, loginKey_follows, loginKey_overruns
-/
import Os88.Library.Execution
import Os88.KernelTerminal.Model

namespace Os88.KernelTerminal

open Execution
open StringLib

/-! ## The login task -/

def rootWord : List (BitVec 8) := bytes "root"

def toorWord : List (BitVec 8) := bytes "toor"

/-- The static strings `username` and `hostname`. -/
def levos : Names where
  username := bytes "root"
  hostname := bytes "levex-levos"

/-- `buffer[i] = ch`; an index outside the block is a fault. -/
def setByte {size : Nat} (buffer : Vector (BitVec 8) size) (i : Nat)
    (ch : BitVec 8) : Option (Vector (BitVec 8) size) :=
  if inside : i < size then some (buffer.set i ch inside) else none

/-- The two loops of `__login`, and the task after `_kill`. -/
inductive Phase where
  | login
  | password
  | killed
deriving DecidableEq, Repr

/-- One output of the login task. -/
inductive LoginOutput where
  | kprintf (message : Message)
  | putc (c : BitVec 8)

/-- The local variables of `__login`, where it stands and what it has put on
the display. -/
structure Login where
  phase : Phase
  buffer : Vector (BitVec 8) 64
  l : Nat
  shown : List LoginOutput

namespace Login

def print (t : Login) (format : String) (arguments : List Argument) : Login :=
  { t with shown := t.shown ++ [.kprintf ⟨format, arguments⟩] }

def putc (t : Login) (c : BitVec 8) : Login :=
  { t with shown := t.shown ++ [.putc c] }

/-- From the label `retry` to the first loop. -/
def retry (t : Login) : Login :=
  { t with phase := .login, buffer := Vector.replicate 64 0#8, l := 0 }.print
    "\n%s login: " [.str levos.hostname]

/-- Between the two loops. -/
def askPassword (t : Login) : Login :=
  { t with phase := .password, buffer := Vector.replicate 64 0#8, l := 0 }.print
    "\n%s@%s password: " [.str levos.username, .str levos.hostname]

/-- The first loop, with a key. -/
def nameKey (c : BitVec 8) (t : Login) : Option Login :=
  if c = 0x0A#8 then do
    let res ← strcmp t.buffer.toList (literal rootWord)
    if res = 0#32 then return t.askPassword else return t.retry
  else do
    let buffer ← setByte t.buffer t.l c
    let l := t.l + 1
    let buffer ← setByte buffer l 0#8
    return { t with buffer := buffer, l := l }.putc c

/-- The second loop, with a key. -/
def passwordKey (c : BitVec 8) (t : Login) : Option Login :=
  if c = 0x0A#8 then do
    let res ← strcmp t.buffer.toList (literal toorWord)
    if res = 0#32 then return { t with phase := .killed }.putc 0x0A#8
    else return t.retry
  else do
    let buffer ← setByte t.buffer t.l c
    let buffer ← setByte buffer (t.l + 1) 0#8
    return { t with buffer := buffer, l := t.l + 1 }

/-- The state in which the first key is awaited; `block` is what `malloc`
returned. -/
def start (block : Vector (BitVec 8) 64) : Login :=
  (Login.print ⟨.login, block, 0, []⟩
    ("  _                 ____   _____ _  _   \n" ++
     " | |               / __ \\ / ____| || |  \n" ++
     " | |     _____   _| |  | | (___ | || |_  \n" ++
     " | |    / _ \\ \\ / / |  | |\\___ \\|__   _|\n" ++
     " | |___|  __/\\ V /| |__| |____) |  | |  \n" ++
     " |______\\___| \\_/  \\____/|_____/   |_|  \n") []).retry

end Login

/-- One answer of `keyboard_get_key`, where 0 is no key. -/
def loginKey (c : BitVec 8) (t : Login) : Option Login :=
  if c = 0#8 then some t
  else
    match t.phase with
    | .login => t.nameKey c
    | .password => t.passwordKey c
    | .killed => some t

/-! ## The lines that are typed -/

/-- The keys, without the answers that stand for no key. -/
def pressed (keys : List (BitVec 8)) : List (BitVec 8) :=
  keys.filter (· ≠ 0#8)

/-- The runs of keys between the newlines; the last one has no newline yet. -/
def typedRuns (keys : List (BitVec 8)) : List (List (BitVec 8)) :=
  (pressed keys).splitOn 0x0A#8

/-- The lines that a newline ends. -/
def typedLines (keys : List (BitVec 8)) : List (List (BitVec 8)) :=
  (typedRuns keys).dropLast

/-- The phase after a line. -/
def nextPhase : Phase → List (BitVec 8) → Phase
  | .login, line => if line = rootWord then .password else .login
  | .password, line => if line = toorWord then .killed else .login
  | .killed, _ => .killed

/-- Some line typed in the password phase is the password. -/
def PasswordGiven (keys : List (BitVec 8)) : Prop :=
  ∃ before, before ++ [toorWord] <+: typedLines keys ∧
    before.foldl nextPhase .login = .password

/-- The phase and the unfinished line after some keys. -/
structure Attempt where
  phase : Phase
  line : List (BitVec 8)

def Attempt.read (a : Attempt) (c : BitVec 8) : Attempt :=
  if c = 0#8 then a
  else if c = 0x0A#8 then ⟨nextPhase a.phase a.line, []⟩
  else ⟨a.phase, a.line ++ [c]⟩

/-- The attempt that is under way after `keys`. -/
def attempt (keys : List (BitVec 8)) : Attempt :=
  keys.foldl Attempt.read ⟨.login, []⟩

/-- As long as the login has not ended, the unfinished line is at most 63 keys
long. -/
def LinesFit (keys : List (BitVec 8)) : Prop :=
  ∀ before, before <+: keys → (attempt before).phase ≠ .killed →
    (attempt before).line.length ≤ 63

/-! ## The buffer -/

section Buffer

variable {size : Nat} {buffer : Vector (BitVec 8) size} {line : List (BitVec 8)}
  {rest : Buffer}

theorem setByte_inside {i : Nat} (inside : i < size) (ch : BitVec 8) :
    setByte buffer i ch = some (buffer.set i ch inside) :=
  dif_pos inside

theorem setByte_outside {i : Nat} (outside : size ≤ i) (ch : BitVec 8) :
    setByte buffer i ch = none :=
  dif_neg (Nat.not_lt.mpr outside)

/-- A key goes behind the line, with a terminator behind it. -/
theorem setByte_append (held : buffer.toList = line ++ 0#8 :: rest)
    (room : line.length + 1 < size) (c : BitVec 8) :
    ∃ first second, setByte buffer line.length c = some first ∧
      setByte first (line.length + 1) 0#8 = some second ∧
      ∃ after, second.toList = (line ++ [c]) ++ 0#8 :: after := by
  have whole := congrArg List.length held
  rw [Vector.length_toList, List.length_append, List.length_cons] at whole
  cases rest with
  | nil =>
      rw [List.length_nil] at whole
      omega
  | cons behind after =>
      refine ⟨_, _, setByte_inside (by omega) c, setByte_inside room 0#8, after, ?_⟩
      rw [Vector.toList_set, Vector.toList_set, held]
      exact CString.overwrite_nul line c 0#8 behind after

/-- What `strcmp` says of a buffer that holds a line. -/
theorem strcmp_line (lineFree : 0#8 ∉ line)
    (held : buffer.toList = line ++ 0#8 :: rest) (word : List (BitVec 8))
    (wordFree : 0#8 ∉ word) :
    ∃ res, strcmp buffer.toList (literal word) = some res ∧
      (res = 0#32 ↔ line = word) := by
  rw [held]
  exact strcmp_literal wordFree lineFree rest

end Buffer

/-! ## One key -/

/-- The buffer holds the unfinished line as long as the login goes on. -/
structure Follows (t : Login) (a : Attempt) : Prop where
  phase : t.phase = a.phase
  nulFree : 0#8 ∉ a.line
  length : a.phase ≠ .killed → t.l = a.line.length
  held : a.phase ≠ .killed → ∃ rest, t.buffer.toList = a.line ++ 0#8 :: rest

/-- A key finds room when it is no character, when nobody reads it, or when the
line has at most 62 characters. -/
def FindsRoom (c : BitVec 8) (a : Attempt) : Prop :=
  c = 0#8 ∨ c = 0x0A#8 ∨ a.phase = .killed ∨ a.line.length ≤ 62

section Keys

variable {t : Login} {a : Attempt} {c : BitVec 8}

theorem read_none (a : Attempt) : a.read 0#8 = a := if_pos rfl

theorem read_newline (a : Attempt) :
    a.read 0x0A#8 = ⟨nextPhase a.phase a.line, []⟩ := by
  simp [Attempt.read]

theorem read_character (present : c ≠ 0#8) (character : c ≠ 0x0A#8)
    (a : Attempt) : a.read c = ⟨a.phase, a.line ++ [c]⟩ := by
  rw [Attempt.read, if_neg present, if_neg character]

theorem follows_retry (t : Login) : Follows t.retry ⟨.login, []⟩ := by
  refine ⟨rfl, by simp, fun _ => rfl, fun _ => ⟨List.replicate 63 0#8, ?_⟩⟩
  exact Vector.toList_replicate

theorem follows_askPassword (t : Login) :
    Follows t.askPassword ⟨.password, []⟩ := by
  refine ⟨rfl, by simp, fun _ => rfl, fun _ => ⟨List.replicate 63 0#8, ?_⟩⟩
  exact Vector.toList_replicate

theorem follows_start (block : Vector (BitVec 8) 64) :
    Follows (Login.start block) ⟨.login, []⟩ :=
  follows_retry _

/-- With the buffer holding one more key, the line is one key longer. -/
theorem follows_character (follows : Follows t a) (going : a.phase ≠ .killed)
    (present : c ≠ 0#8) (character : c ≠ 0x0A#8)
    {buffer : Vector (BitVec 8) 64} {after : Buffer}
    (holds : buffer.toList = (a.line ++ [c]) ++ 0#8 :: after)
    (shown : List LoginOutput) :
    Follows ⟨t.phase, buffer, t.l + 1, shown⟩ (a.read c) := by
  rw [read_character present character]
  refine ⟨follows.phase, ?_, ?_, fun _ => ⟨after, holds⟩⟩
  · simp [follows.nulFree, Ne.symm present]
  · intro _
    show t.l + 1 = _
    rw [follows.length going, List.length_append, List.length_singleton]

/-- A newline in the first loop. -/
theorem nameKey_newline (follows : Follows t a) (phase : a.phase = .login) :
    ∃ t', t.nameKey 0x0A#8 = some t' ∧ Follows t' (a.read 0x0A#8) := by
  have going : a.phase ≠ .killed := by simp [phase]
  rcases follows.held going with ⟨rest, held⟩
  obtain ⟨res, compared, zero⟩ :=
    strcmp_line follows.nulFree held rootWord (by decide)
  rw [read_newline, phase, nextPhase, Login.nameKey, if_pos rfl, compared]
  by_cases same : a.line = rootWord
  · rw [if_pos same]
    exact ⟨t.askPassword, if_pos (zero.mpr same), follows_askPassword t⟩
  · rw [if_neg same]
    exact ⟨t.retry, if_neg fun equal => same (zero.mp equal), follows_retry t⟩

/-- A newline in the second loop. -/
theorem passwordKey_newline (follows : Follows t a)
    (phase : a.phase = .password) :
    ∃ t', t.passwordKey 0x0A#8 = some t' ∧ Follows t' (a.read 0x0A#8) := by
  have going : a.phase ≠ .killed := by simp [phase]
  rcases follows.held going with ⟨rest, held⟩
  obtain ⟨res, compared, zero⟩ :=
    strcmp_line follows.nulFree held toorWord (by decide)
  rw [read_newline, phase, nextPhase, Login.passwordKey, if_pos rfl, compared]
  by_cases same : a.line = toorWord
  · rw [if_pos same]
    refine ⟨_, if_pos (zero.mpr same), rfl, by simp, ?_, ?_⟩
    · intro going
      exact absurd rfl going
    · intro going
      exact absurd rfl going
  · rw [if_neg same]
    exact ⟨t.retry, if_neg fun equal => same (zero.mp equal), follows_retry t⟩

/-- A character in the first loop. -/
theorem nameKey_character (follows : Follows t a) (phase : a.phase = .login)
    (present : c ≠ 0#8) (character : c ≠ 0x0A#8) (room : a.line.length ≤ 62) :
    ∃ t', t.nameKey c = some t' ∧ Follows t' (a.read c) := by
  have going : a.phase ≠ .killed := by simp [phase]
  rcases follows.held going with ⟨rest, held⟩
  obtain ⟨first, second, set, ended, after, holds⟩ :=
    setByte_append held (by omega) c
  refine ⟨{ t with buffer := second, l := t.l + 1 }.putc c, ?_,
    follows_character follows going present character holds _⟩
  simp only [Login.nameKey, if_neg character, follows.length going, set, ended,
    Option.bind_eq_bind, Option.bind_some]
  rfl

/-- A character in the second loop. -/
theorem passwordKey_character (follows : Follows t a)
    (phase : a.phase = .password) (present : c ≠ 0#8)
    (character : c ≠ 0x0A#8) (room : a.line.length ≤ 62) :
    ∃ t', t.passwordKey c = some t' ∧ Follows t' (a.read c) := by
  have going : a.phase ≠ .killed := by simp [phase]
  rcases follows.held going with ⟨rest, held⟩
  obtain ⟨first, second, set, ended, after, holds⟩ :=
    setByte_append held (by omega) c
  refine ⟨{ t with buffer := second, l := t.l + 1 }, ?_,
    follows_character follows going present character holds _⟩
  simp only [Login.passwordKey, if_neg character, follows.length going, set,
    ended, Option.bind_eq_bind, Option.bind_some]
  rfl

/-- After `_kill` no key is read. -/
theorem loginKey_killed (follows : Follows t a) (phase : a.phase = .killed)
    (c : BitVec 8) :
    ∃ t', loginKey c t = some t' ∧ Follows t' (a.read c) := by
  have stays : (a.read c).phase = .killed := by
    simp only [Attempt.read]
    split
    · exact phase
    · split
      · simp [phase, nextPhase]
      · exact phase
  have killed : t.phase = .killed := follows.phase.trans phase
  refine ⟨t, by simp [loginKey, killed], ?_, ?_, ?_, ?_⟩
  · rw [killed, stays]
  · simp only [Attempt.read]
    split
    · exact follows.nulFree
    · rename_i present
      split
      · simp
      · simp [follows.nulFree, Ne.symm present]
  · intro going
    exact absurd stays going
  · intro going
    exact absurd stays going

/-- Every key that finds room is taken as the attempt takes it. -/
theorem loginKey_follows (follows : Follows t a) (room : FindsRoom c a) :
    ∃ t', loginKey c t = some t' ∧ Follows t' (a.read c) := by
  by_cases none : c = 0#8
  · subst none
    exact ⟨t, if_pos rfl, by rwa [read_none]⟩
  · rw [loginKey, if_neg none, follows.phase]
    cases phase : a.phase with
    | login =>
        by_cases newline : c = 0x0A#8
        · subst newline
          exact nameKey_newline follows phase
        · have short : a.line.length ≤ 62 := by
            simpa [FindsRoom, none, newline, phase] using room
          exact nameKey_character follows phase none newline short
    | password =>
        by_cases newline : c = 0x0A#8
        · subst newline
          exact passwordKey_newline follows phase
        · have short : a.line.length ≤ 62 := by
            simpa [FindsRoom, none, newline, phase] using room
          exact passwordKey_character follows phase none newline short
    | killed =>
        obtain ⟨t', ran, kept⟩ := loginKey_killed follows phase c
        rw [loginKey, if_neg none, follows.phase, phase] at ran
        exact ⟨t', ran, kept⟩

/-- A key without room writes outside the buffer. -/
theorem loginKey_overruns (follows : Follows t a) (full : ¬ FindsRoom c a) :
    loginKey c t = none := by
  simp only [FindsRoom, not_or, Nat.not_le] at full
  rcases full with ⟨present, character, going, long⟩
  have outside : ∀ first : Vector (BitVec 8) 64,
      setByte first (a.line.length + 1) 0#8 = none :=
    fun first => setByte_outside (by omega) 0#8
  rw [loginKey, if_neg present, follows.phase]
  cases phase : a.phase with
  | login =>
      simp only [Login.nameKey, if_neg character, follows.length going, outside]
      exact Option.bind_fun_none _
  | password =>
      simp only [Login.passwordKey, if_neg character, follows.length going, outside]
      exact Option.bind_fun_none _
  | killed => exact absurd phase going

end Keys

end Os88.KernelTerminal
