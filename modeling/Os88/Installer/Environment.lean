/-
Module: Os88.Installer.Environment
Purpose: `get_env` of install.cpp: the two calls of `_getenv`, with the buffers they
  are given, and the bytes of the buffers that are read.
Trusted boundary: `_getenv` is the operating system's and enters as a parameter with
  its documented behaviour.
Main exports: Block, cString, Getenv, Getenv.Meets, Getenv.call, getEnv,
  ReturnsVariable, Getenv.copying, copying_meets, getEnv_of_unset, getEnv_of_short,
  getEnv_of_long, returnsVariable_iff
-/
import Os88.Installer.Placeholders

namespace Os88.Installer

open StringLib (bytes)

/-- A buffer.  Reading a byte of it that was never written is a fault. -/
abbrev Block := List (Option (BitVec 8))

/-- `new char[size]`, and a local array before its first use -/
def fresh (size : Nat) : Block := List.replicate size none

/-- The assignment of a `char *` to a `std::string`: it reads as far as the first
terminator, and reading behind the end of the buffer is a fault. -/
def cString : Block → Option Text
  | [] => none
  | none :: _ => none
  | some ch :: rest => if ch = 0#8 then some [] else (cString rest).map (ch :: ·)

/-- `_getenv`: what it returns, and the bytes it writes from the start of the
buffer on, by the name and the size it is given. -/
structure Getenv where
  size : Text → Nat → Nat
  written : Text → Nat → List (BitVec 8)

/-- The documented behaviour.  Of a value that does not fit nothing is said but
that no more bytes are written than the size allows. -/
structure Getenv.Meets (getenv : Getenv) (env : Text → Option Text) : Prop where
  values : ∀ {name value}, env name = some value → 0#8 ∉ value
  unset : ∀ {name}, env name = none → ∀ n, getenv.size name n = 0 ∧ getenv.written name n = []
  size : ∀ {name value}, env name = some value → ∀ n, getenv.size name n = value.length + 1
  written_length : ∀ name n, (getenv.written name n).length ≤ n
  copied : ∀ {name value}, env name = some value → ∀ n, value.length + 1 ≤ n →
    getenv.written name n = value ++ [0#8]

/-- A call that may write behind the end of the buffer is a fault. -/
def Getenv.call (getenv : Getenv) (name : Text) (buf : Block) (n : Nat) :
    Option (Nat × Block) :=
  if n ≤ buf.length then
    let written := getenv.written name n
    some (getenv.size name n, written.map some ++ buf.drop written.length)
  else none

def getEnv (getenv : Getenv) (name : Text) : Option Text := do
  let value := fresh 128
  let (size, value) ← getenv.call name value 128
  let ret ← cString value
  let ret ←
    if 128 < size then do
      let buf := fresh size
      -- it is `value` that is passed again, and `buf` that is read
      let _ ← getenv.call name value size
      cString buf
    else pure ret
  if size ≠ 0 then return ret else return []

/-- `get_env` runs without a fault and returns the value, empty when unset. -/
def ReturnsVariable (getenv : Getenv) (env : Text → Option Text) (name : Text) : Prop :=
  getEnv getenv name = some ((env name).getD [])

theorem cString_of_string {s : Text} (nulFree : 0#8 ∉ s) (rest : Block) :
    cString ((s ++ [0#8]).map some ++ rest) = some s := by
  induction s with
  | nil => rfl
  | cons ch s inductionHypothesis =>
      have present : ch ≠ 0#8 := fun ended => nulFree (by simp [ended])
      have tail := inductionHypothesis fun member =>
        nulFree (List.mem_cons_of_mem ch member)
      rw [List.cons_append, List.map_cons, List.cons_append, cString, if_neg present, tail]
      rfl

theorem cString_fresh (size : Nat) : cString (fresh size) = none := by
  cases size <;> rfl

/-! ## By the length of the value -/

section Variable

variable {getenv : Getenv} {env : Text → Option Text} {name : Text}

/-- When the variable is unset, the first byte of the array is read unwritten. -/
theorem getEnv_of_unset (meets : getenv.Meets env) (unset : env name = none) :
    getEnv getenv name = none := by
  have first : getenv.call name (fresh 128) 128 = some (0, fresh 128) := by
    rw [Getenv.call, if_pos (by simp [fresh]), (meets.unset unset 128).1,
      (meets.unset unset 128).2]
    rfl
  rw [getEnv, first]
  simp only [Option.bind_eq_bind, Option.bind_some, cString_fresh, Option.bind_none]

theorem getEnv_of_short (meets : getenv.Meets env) {value : Text}
    (set : env name = some value) (short : value.length ≤ 127) :
    getEnv getenv name = some value := by
  have first : getenv.call name (fresh 128) 128 = some (value.length + 1,
      (value ++ [0#8]).map some ++ (fresh 128).drop (value.length + 1)) := by
    rw [Getenv.call, if_pos (by simp [fresh]), meets.size set, meets.copied set 128 (by omega)]
    simp
  have fits : ¬ 128 < value.length + 1 := by omega
  rw [getEnv, first]
  simp only [Option.bind_eq_bind, Option.bind_some, cString_of_string (meets.values set),
    if_neg fits]
  rfl

/-- A longer value is asked for again with its size, in the array of 128 bytes. -/
theorem getEnv_of_long (meets : getenv.Meets env) {value : Text}
    (set : env name = some value) (long : 127 < value.length) :
    getEnv getenv name = none := by
  obtain ⟨block, first, length⟩ : ∃ block, getenv.call name (fresh 128) 128 =
      some (value.length + 1, block) ∧ block.length = 128 := by
    have bound := meets.written_length name 128
    refine ⟨_, by rw [Getenv.call, if_pos (by simp [fresh]), meets.size set], ?_⟩
    simp only [fresh, List.length_append, List.length_map, List.length_drop,
      List.length_replicate]
    omega
  have again : getenv.call name block (value.length + 1) = none := by
    rw [Getenv.call, length, if_neg (by omega)]
  have longer : 128 < value.length + 1 := by omega
  rw [getEnv, first]
  simp only [Option.bind_eq_bind, Option.bind_some, if_pos longer, again, Option.bind_none]
  cases cString block <;> rfl

end Variable

/-- The `_getenv` that copies as much of the value as fits. -/
def Getenv.copying (env : Text → Option Text) : Getenv where
  size name _ := match env name with
    | some value => value.length + 1
    | none => 0
  written name n := match env name with
    | some value => (value ++ [0#8]).take n
    | none => []

theorem copying_meets {env : Text → Option Text}
    (values : ∀ {name value}, env name = some value → 0#8 ∉ value) :
    (Getenv.copying env).Meets env where
  values := values
  unset unset n := by simp [Getenv.copying, unset]
  size set n := by simp [Getenv.copying, set]
  written_length name n := by
    cases set : env name with
    | none => simp [Getenv.copying, set]
    | some value =>
        simp only [Getenv.copying, set, List.length_take]
        exact Nat.min_le_left _ _
  copied set n fits := by
    simp only [Getenv.copying, set]
    exact List.take_of_length_le (by simpa using fits)

/-- The variable is returned exactly when it is set to 127 characters at most. -/
theorem returnsVariable_iff {getenv : Getenv} {env : Text → Option Text}
    (meets : getenv.Meets env) (name : Text) :
    ReturnsVariable getenv env name ↔ ∃ value, env name = some value ∧ value.length ≤ 127 := by
  cases set : env name with
  | none =>
      rw [ReturnsVariable, getEnv_of_unset meets set]
      simp
  | some value =>
      by_cases short : value.length ≤ 127
      · rw [ReturnsVariable, getEnv_of_short meets set short, set]
        exact iff_of_true rfl ⟨value, rfl, short⟩
      · rw [ReturnsVariable, getEnv_of_long meets set (by omega)]
        simp [short]

/-- The drive of the system. -/
theorem returnsVariable_iff_drive :
    (Getenv.copying fun _ => some (bytes "hdd0P0")).Meets (fun _ => some (bytes "hdd0P0")) ∧
    ReturnsVariable (Getenv.copying fun _ => some (bytes "hdd0P0"))
      (fun _ => some (bytes "hdd0P0")) (bytes "SYSTEMDRIVE") := by
  have meets : (Getenv.copying fun _ => some (bytes "hdd0P0")).Meets
      (fun _ => some (bytes "hdd0P0")) := by
    refine copying_meets fun held => ?_
    obtain rfl := Option.some.inj held
    decide
  exact ⟨meets, (returnsVariable_iff meets _).mpr ⟨bytes "hdd0P0", rfl, by decide⟩⟩

/-- A variable that is not set, and one of 128 characters. -/
theorem not_returnsVariable_unset_long :
    getEnv (Getenv.copying fun _ => none) (bytes "CWD") = none ∧
    getEnv (Getenv.copying fun _ => some (List.replicate 128 0x61#8)) (bytes "CWD") = none ∧
    ¬ (∀ (getenv : Getenv) (env : Text → Option Text), getenv.Meets env →
      ∀ name, ReturnsVariable getenv env name) := by
  have unset : (Getenv.copying fun _ => none).Meets fun _ => none := copying_meets nofun
  have long : (Getenv.copying fun _ => some (List.replicate 128 0x61#8)).Meets
      fun _ => some (List.replicate 128 0x61#8) := by
    refine copying_meets fun held => ?_
    obtain rfl := Option.some.inj held
    simp
  have missing : getEnv (Getenv.copying fun _ => none) (bytes "CWD") = none :=
    getEnv_of_unset unset rfl
  refine ⟨missing, getEnv_of_long long rfl (by simp), fun all => ?_⟩
  have returned := all _ _ unset (bytes "CWD")
  rw [ReturnsVariable, missing] at returned
  cases returned

end Os88.Installer
