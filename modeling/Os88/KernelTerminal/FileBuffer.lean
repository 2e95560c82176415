/-
Module: Os88.KernelTerminal.FileBuffer
Purpose: The commands of the kernel terminal that read a file into `file_buf`,
  and what `cat` prints after any history of them.
Trusted boundary: `vfs_read` stores the bytes of a file that exists and says
  whether it does; `exec_start` and the other commands leave `file_buf` alone;
  `kprintf` reads a `%s` argument up to its terminator.
Main exports: FileCommand, dispatch, vfsRead, execute, runEntry, leftover,
  run_leftover, cat_shows_file_iff
-/
import Os88.KernelTerminal.WorkingDirectory

namespace Os88.KernelTerminal

open Execution
open StringLib

def unameWord : List (BitVec 8) := bytes "uname"

def catWord : List (BitVec 8) := bytes "cat"

def levWord : List (BitVec 8) := bytes "lev"

def procPath : List (BitVec 8) := bytes "/proc/os/full"

def hwPath : List (BitVec 8) := bytes "/bin/hw"

/-- The words that `_test` compares the first one of a line with, in its order. -/
def commandWords : List (List (BitVec 8)) :=
  ["help", "reboot", "read", "malloc", "mount", "uname", "cat", "ps", "time", "clear",
    "reset", "v", "kill", "ls", "mem", "cd", "devinfo", "fl", "write", "lev",
    "touch"].map bytes

/-- The commands that use `file_buf`; `cat` may come without a parameter. -/
inductive FileCommand where
  | uname
  | cat (arg : Option Buffer)
  | lev
  | run (name : Buffer)
  | other
deriving DecidableEq, Repr

/-- The first `strcmp` that finds its word, if any does. -/
def firstMatch (buffer : Buffer) :
    List (List (BitVec 8)) → Option (Option (List (BitVec 8)))
  | [] => some none
  | word :: rest => do
      let res ← strcmp buffer (literal word)
      if res = 0#32 then return some word else firstMatch buffer rest

/-- What `_test` does with a line. -/
def dispatch (buffer : Buffer) : Option FileCommand := do
  let (n, buffer) ← strsplit buffer 0x20#8
  let found ← firstMatch buffer commandWords
  match found with
  | some word =>
      if word = unameWord then some .uname
      else if word = catWord then
        if n = 0 ∨ n = 1 then some (.cat none)
        else (argument buffer).map fun arg => .cat (some arg)
      else if word = levWord then some .lev
      else some .other
  | none => buffer.head?.map fun first => if first = 0#8 then .other else .run buffer

/-- The files that exist, by their paths. -/
abbrev Files := List (BitVec 8) → Option (List (BitVec 8))

/-- `file_buf` and what the terminal has printed. -/
structure FileTerminal where
  fileBuf : Buffer
  printed : List Message

def FileTerminal.print (t : FileTerminal) (format : String) (arguments : List Argument) :
    FileTerminal :=
  { t with printed := t.printed ++ [⟨format, arguments⟩] }

/-- `memset(dst, ch, n)` -/
def memset (dst : Buffer) (ch : BitVec 8) (n : Nat) : Option Buffer :=
  if n ≤ dst.length then some (List.replicate n ch ++ dst.drop n) else none

/-- `vfs_read(path, file_buf)`: a file that is longer than the block is a fault. -/
def vfsRead (files : Files) (path : List (BitVec 8)) (buf : Buffer) :
    Option (Bool × Buffer) :=
  match files path with
  | some file => (memcpy buf 0 file file.length).map fun buf => (true, buf)
  | none => some (false, buf)

/-- The branches of `_test`. -/
def execute (rootMounted : Bool) (files : Files) (command : FileCommand)
    (t : FileTerminal) : Option FileTerminal :=
  match command with
  | .uname =>
      if !rootMounted then some t
      else do
        let (_, buf) ← vfsRead files procPath t.fileBuf
        let shown ← text buf
        let buf ← memset buf 0#8 512
        return { t with fileBuf := buf }.print "%s\n" [.str shown]
  | .cat none => some (t.print "FATAL: no parameter.\n" [])
  | .cat (some arg) => do
      let buf ← memset t.fileBuf 0#8 512
      let path ← text arg
      let (found, buf) ← vfsRead files path buf
      if found then
        let shown ← text buf
        return { t with fileBuf := buf }.print "%s\n" [.str shown]
      else return { t with fileBuf := buf }.print "File not found.\n" []
  | .lev => do
      let (found, buf) ← vfsRead files hwPath t.fileBuf
      if found then return { t with fileBuf := buf }
      else return { t with fileBuf := buf }.print "Unable to read /bin/hw\n" []
  | .run name => do
      let path ← text name
      let (_, buf) ← vfsRead files path t.fileBuf
      return { t with fileBuf := buf }
  | .other => some t

/-- A line that is entered, with `root_mounted` and the files at that time. -/
structure FileEntry where
  line : Buffer
  rootMounted : Bool
  files : Files

def runEntry (entry : FileEntry) (t : FileTerminal) : Option FileTerminal :=
  (dispatch entry.line).bind fun command =>
    execute entry.rootMounted entry.files command t

/-- The terminal with the block from `malloc(524288)`. -/
def FileTerminal.start (block : Vector (BitVec 8) 524288) : FileTerminal where
  fileBuf := block.toList
  printed := []

/-! ## What is left in the buffer -/

/-- The file that a command reads into the buffer. -/
def reads (rootMounted : Bool) (files : Files) : FileCommand → Option (List (BitVec 8))
  | .uname => if rootMounted then files procPath else none
  | .cat none => none
  | .cat (some arg) => (text arg).bind files
  | .lev => files hwPath
  | .run name => (text name).bind files
  | .other => none

def FileEntry.readBy (entry : FileEntry) : Option (List (BitVec 8)) :=
  (dispatch entry.line).bind (reads entry.rootMounted entry.files)

/-- The byte at `p` after a file, if any, was read over a byte. -/
def readOver (file : Option (List (BitVec 8))) (p : Nat) (byte : Option (BitVec 8)) :
    Option (BitVec 8) :=
  (file.bind fun file => file[p]?).or byte

/-- The byte at `p`, at least 512, after a history: that of the last file that is
longer than `p`, or else the one of the block. -/
def leftover (block : Buffer) (history : List FileEntry) (p : Nat) : Option (BitVec 8) :=
  history.foldl (fun byte entry => readOver entry.readBy p byte) block[p]?

/-- Files that end before `p` leave the byte of the block. -/
theorem leftover_of_short {block : Buffer} {history : List FileEntry} {p : Nat}
    (short : ∀ entry ∈ history, ∀ file, entry.readBy = some file → file.length ≤ p) :
    leftover block history p = block[p]? := by
  unfold leftover
  generalize block[p]? = byte
  induction history with
  | nil => rfl
  | cons entry rest inductionHypothesis =>
      rw [List.forall_mem_cons] at short
      have kept : readOver entry.readBy p byte = byte := by
        cases read : entry.readBy with
        | none => rfl
        | some file =>
            have ended := List.getElem?_eq_none (short.1 file read)
            rw [readOver, Option.bind_some, ended, Option.none_or]
      rw [List.foldl_cons, kept]
      exact inductionHypothesis short.2

/-- The buffer after a step: as long as before, and from `first` on the bytes of
the file read over the old ones. -/
structure ReadsOver (first : Nat) (file : Option (List (BitVec 8)))
    (before after : Buffer) : Prop where
  length : after.length = before.length
  bytes : ∀ p, first ≤ p → after[p]? = readOver file p before[p]?

section Buffers

variable {buf buf' buf'' : Buffer} {files : Files} {n : Nat}

theorem ReadsOver.refl (first : Nat) (buf : Buffer) : ReadsOver first none buf buf :=
  ⟨rfl, fun _ _ => rfl⟩

/-- With steps that read nothing before and after it. -/
theorem ReadsOver.between {file : Option (List (BitVec 8))} {final : Buffer}
    (one : ReadsOver n none buf buf') (two : ReadsOver n file buf' buf'')
    (three : ReadsOver n none buf'' final) : ReadsOver n file buf final where
  length := three.length.trans (two.length.trans one.length)
  bytes p behind := by
    rw [three.bytes p behind, two.bytes p behind, one.bytes p behind]
    rfl

theorem memset_readsOver {ch : BitVec 8} (ran : memset buf ch n = some buf') :
    ReadsOver n none buf buf' := by
  unfold memset at ran
  split at ran
  · rename_i fits
    obtain rfl := Option.some.inj ran
    constructor
    · rw [List.length_append, List.length_replicate, List.length_drop]
      omega
    · intro p behind
      rw [List.getElem?_append_right (by rwa [List.length_replicate]),
        List.length_replicate, List.getElem?_drop, Nat.add_sub_cancel' behind]
      rfl
  · cases ran

theorem memset_inside {ch : BitVec 8} (ran : memset buf ch n = some buf') {p : Nat}
    (inside : p < n) : buf'[p]? = some ch := by
  unfold memset at ran
  split at ran
  · obtain rfl := Option.some.inj ran
    rw [List.getElem?_append_left (by rwa [List.length_replicate]),
      List.getElem?_replicate_of_lt inside]
  · cases ran

theorem memcpy_start {file : List (BitVec 8)} (fits : file.length ≤ buf.length) :
    memcpy buf 0 file file.length = some (file ++ buf.drop file.length) := by
  rw [memcpy, if_pos ⟨by omega, Nat.le_refl _⟩, List.take_length, Nat.zero_add]
  rfl

/-- A file covers the bytes of the buffer up to its length. -/
theorem vfsRead_readsOver {path : List (BitVec 8)} {found : Bool}
    (ran : vfsRead files path buf = some (found, buf')) :
    ReadsOver n (files path) buf buf' := by
  unfold vfsRead at ran
  cases read : files path with
  | none =>
      rw [read] at ran
      obtain ⟨-, rfl⟩ := Prod.mk.inj (Option.some.inj ran)
      exact .refl n buf
  | some file =>
      rw [read] at ran
      rcases Option.map_eq_some_iff.mp ran with ⟨stored, copied, same⟩
      obtain ⟨-, rfl⟩ := Prod.mk.inj same
      by_cases fits : file.length ≤ buf.length
      · rw [memcpy_start fits] at copied
        obtain rfl := Option.some.inj copied
        constructor
        · rw [List.length_append, List.length_drop]
          omega
        · intro p _
          rw [readOver, Option.bind_some, List.getElem?_append]
          split
          · rename_i inside
            rw [List.getElem?_eq_getElem inside]
            rfl
          · rename_i outside
            rw [List.getElem?_eq_none (Nat.not_lt.mp outside), List.getElem?_drop,
              Option.none_or, Nat.add_sub_cancel' (Nat.not_lt.mp outside)]
      · rw [memcpy, if_neg (fun room => fits (by omega))] at copied
        cases copied

end Buffers

/-! ## Histories -/

section Histories

variable {t t' : FileTerminal}

/-- Every command reads its file over the bytes that `memset` does not clear. -/
theorem execute_readsOver {rootMounted : Bool} {files : Files} {command : FileCommand}
    (ran : execute rootMounted files command t = some t') :
    ReadsOver 512 (reads rootMounted files command) t.fileBuf t'.fileBuf := by
  cases command with
  | uname =>
      cases rootMounted with
      | false =>
          obtain rfl := Option.some.inj ran
          exact .refl 512 t.fileBuf
      | true =>
          rcases Option.bind_eq_some_iff.mp ran with ⟨⟨found, buf⟩, read, ran⟩
          rcases Option.bind_eq_some_iff.mp ran with ⟨shown, held, ran⟩
          rcases Option.bind_eq_some_iff.mp ran with ⟨cleared, set, ran⟩
          obtain rfl := Option.some.inj ran
          exact ReadsOver.between (.refl 512 t.fileBuf) (vfsRead_readsOver read)
            (memset_readsOver set)
  | cat arg =>
      cases arg with
      | none =>
          obtain rfl := Option.some.inj ran
          exact .refl 512 t.fileBuf
      | some arg =>
          rcases Option.bind_eq_some_iff.mp ran with ⟨cleared, set, ran⟩
          rcases Option.bind_eq_some_iff.mp ran with ⟨path, held, ran⟩
          rcases Option.bind_eq_some_iff.mp ran with ⟨⟨found, buf⟩, read, ran⟩
          have buffered : ReadsOver 512 (reads rootMounted files (.cat (some arg)))
              t.fileBuf buf := by
            rw [reads, held]
            exact ReadsOver.between (memset_readsOver set) (vfsRead_readsOver read)
              (.refl 512 buf)
          cases found with
          | true =>
              rcases Option.bind_eq_some_iff.mp ran with ⟨shown, held', ran⟩
              obtain rfl := Option.some.inj ran
              exact buffered
          | false =>
              obtain rfl := Option.some.inj ran
              exact buffered
  | lev =>
      rcases Option.bind_eq_some_iff.mp ran with ⟨⟨found, buf⟩, read, ran⟩
      have buffered : ReadsOver 512 (reads rootMounted files .lev) t.fileBuf buf :=
        vfsRead_readsOver read
      cases found with
      | true =>
          obtain rfl := Option.some.inj ran
          exact buffered
      | false =>
          obtain rfl := Option.some.inj ran
          exact buffered
  | run name =>
      rcases Option.bind_eq_some_iff.mp ran with ⟨path, held, ran⟩
      rcases Option.bind_eq_some_iff.mp ran with ⟨⟨found, buf⟩, read, ran⟩
      obtain rfl := Option.some.inj ran
      rw [reads, held]
      exact vfsRead_readsOver read
  | other =>
      obtain rfl := Option.some.inj ran
      exact .refl 512 t.fileBuf

theorem runEntry_readsOver {entry : FileEntry} (ran : runEntry entry t = some t') :
    ReadsOver 512 entry.readBy t.fileBuf t'.fileBuf := by
  rcases Option.bind_eq_some_iff.mp ran with ⟨command, dispatched, executed⟩
  rw [FileEntry.readBy, dispatched, Option.bind_some]
  exact execute_readsOver executed

/-- What a whole history leaves in the buffer. -/
theorem run_leftover {history : List FileEntry}
    (ran : runAll runEntry history t = some t') :
    t'.fileBuf.length = t.fileBuf.length ∧
      ∀ p, 512 ≤ p → t'.fileBuf[p]? = leftover t.fileBuf history p := by
  induction history generalizing t with
  | nil =>
      obtain rfl := Option.some.inj ran
      exact ⟨rfl, fun _ _ => rfl⟩
  | cons entry rest inductionHypothesis =>
      rw [runAll_cons] at ran
      rcases Option.bind_eq_some_iff.mp ran with ⟨middle, once, later⟩
      have buffered := runEntry_readsOver once
      rcases inductionHypothesis later with ⟨length, bytes⟩
      refine ⟨length.trans buffered.length, fun p behind => ?_⟩
      rw [bytes p behind, leftover, buffered.bytes p behind]
      rfl

end Histories

/-! ## `cat` -/

/-- The first word of a line decides, by the list of words. -/
theorem firstMatch_of_text {buffer : Buffer} {s : List (BitVec 8)}
    (held : text buffer = some s) {words : List (List (BitVec 8))}
    (nulFree : ∀ word ∈ words, 0#8 ∉ word) :
    firstMatch buffer words = some (words.find? (s = ·)) := by
  induction words with
  | nil => rfl
  | cons word rest inductionHypothesis =>
      rw [List.forall_mem_cons] at nulFree
      obtain ⟨res, compared, zero⟩ :=
        strcmp_of_text held (CString.text_append_nul nulFree.1 [])
      have literal_eq : strcmp buffer (literal word) = some res := compared
      rw [firstMatch, literal_eq]
      by_cases same : s = word
      · simp [same, zero.mpr same]
      · have other : res ≠ 0#32 := fun equal => same (zero.mp equal)
        simp [same, other, inductionHypothesis nulFree.2]

/-- The line `cat path`, in front of what else is in the buffer. -/
def catEntry (path : List (BitVec 8)) (rest : Buffer) (rootMounted : Bool)
    (files : Files) : FileEntry where
  line := catWord ++ [0x20#8] ++ path ++ 0#8 :: rest
  rootMounted := rootMounted
  files := files

section Cat

variable {t : FileTerminal} {path file : List (BitVec 8)} {rest : Buffer}
  {rootMounted : Bool} {files : Files}

theorem dispatch_cat (pathFree : 0#8 ∉ path) (onePath : 0x20#8 ∉ path) :
    dispatch (catEntry path rest rootMounted files).line =
      some (.cat (some (path ++ 0#8 :: rest))) := by
  have found : firstMatch (catWord ++ 0#8 :: (path ++ 0#8 :: rest)) commandWords =
      some (some catWord) := by
    rw [firstMatch_of_text (CString.text_append_nul (by decide) _) (by decide)]
    decide
  have split : strsplit (catWord ++ [0x20#8] ++ path ++ 0#8 :: rest) 0x20#8 =
      some (path.count 0x20#8 + 2, catWord ++ 0#8 ::
        (path.map (fun ch => if ch = 0x20#8 then 0#8 else ch) ++ 0#8 :: rest)) :=
    strsplit_line (by decide) (by decide) pathFree rest
  rw [map_delim_of_not_mem onePath, List.count_eq_zero_of_not_mem onePath] at split
  have arg : argument (catWord ++ 0#8 :: (path ++ 0#8 :: rest)) =
      some (path ++ 0#8 :: rest) := argument_of_word (by decide) _
  have noUname : catWord ≠ unameWord := by decide
  simp only [dispatch, catEntry, split, found, Option.bind_eq_bind, Option.bind_some,
    noUname, if_false, if_true, arg, Option.map_some]
  rfl

theorem readBy_cat (pathFree : 0#8 ∉ path) (onePath : 0x20#8 ∉ path) :
    (catEntry path rest rootMounted files).readBy = files path := by
  have held : text (path ++ 0#8 :: rest) = some path :=
    CString.text_append_nul pathFree rest
  rw [FileEntry.readBy, dispatch_cat pathFree onePath, Option.bind_some, reads, held]
  rfl

/-- A string in front of other bytes ends with it exactly when a terminator
comes next. -/
theorem text_append_eq_iff (nulFree : 0#8 ∉ file) (after : Buffer) :
    text (file ++ after) = some file ↔ after[0]? = some 0#8 := by
  rw [text, CString.text_append nulFree]
  cases after with
  | nil => simp [CString.text]
  | cons ch after =>
      by_cases ended : ch = 0#8
      · simp [ended]
      · simp [CString.text_cons ended, ended]

/-- `cat path` prints exactly the file. -/
def ShowsFile (entry : FileEntry) (file : List (BitVec 8)) (t : FileTerminal) : Prop :=
  ∃ t', runEntry entry t = some t' ∧
    t'.printed = t.printed ++ [⟨"%s\n", [.str file]⟩]

/-- `cat` prints what the buffer holds when the file is read over its cleared
start. -/
theorem runEntry_cat (pathFree : 0#8 ∉ path) (onePath : 0x20#8 ∉ path)
    (found : files path = some file) {cleared : Buffer}
    (set : memset t.fileBuf 0#8 512 = some cleared) (fits : file.length ≤ cleared.length) :
    runEntry (catEntry path rest rootMounted files) t =
      (text (file ++ cleared.drop file.length)).map fun shown =>
        { t with fileBuf := file ++ cleared.drop file.length }.print "%s\n"
          [.str shown] := by
  have held : text (path ++ 0#8 :: rest) = some path :=
    CString.text_append_nul pathFree rest
  have read : vfsRead files path cleared =
      some (true, file ++ cleared.drop file.length) := by
    rw [vfsRead, found]
    simp only [memcpy_start fits, Option.map_some]
  have executed : runEntry (catEntry path rest rootMounted files) t =
      execute rootMounted files (.cat (some (path ++ 0#8 :: rest))) t := by
    rw [runEntry, dispatch_cat pathFree onePath]
    rfl
  rw [executed]
  simp only [execute, set, held, read, Option.bind_eq_bind, Option.bind_some, if_true]
  cases text (file ++ cleared.drop file.length) <;> rfl

/-- In any state, `cat` prints exactly the file when it is shorter than what is
cleared, or the byte behind it is zero already. -/
theorem showsFile_iff (pathFree : 0#8 ∉ path) (onePath : 0x20#8 ∉ path)
    (found : files path = some file) (nulFree : 0#8 ∉ file)
    (block : t.fileBuf.length = 524288) (small : file.length < 524288) :
    ShowsFile (catEntry path rest rootMounted files) file t ↔
      file.length < 512 ∨ t.fileBuf[file.length]? = some 0#8 := by
  obtain ⟨cleared, set⟩ : ∃ cleared, memset t.fileBuf 0#8 512 = some cleared :=
    ⟨_, if_pos (by omega)⟩
  have buffered := memset_readsOver set
  have length := buffered.length
  have run : runEntry (catEntry path rest rootMounted files) t = _ :=
    runEntry_cat pathFree onePath found set (by omega)
  have behind : (cleared.drop file.length)[0]? = cleared[file.length]? := by
    rw [List.getElem?_drop, Nat.add_zero]
  have shows : ShowsFile (catEntry path rest rootMounted files) file t ↔
      cleared[file.length]? = some 0#8 := by
    rw [← behind, ← text_append_eq_iff nulFree, ShowsFile, run]
    constructor
    · rintro ⟨t', ran, printed⟩
      rcases Option.map_eq_some_iff.mp ran with ⟨shown, held, rfl⟩
      have same := List.append_cancel_left printed
      simp only [List.cons.injEq, Message.mk.injEq, Argument.str.injEq, true_and,
        and_true] at same
      rw [held, same]
    · intro held
      exact ⟨_, by rw [held]; rfl, rfl⟩
  rw [shows]
  by_cases short : file.length < 512
  · exact iff_of_true (memset_inside set short) (Or.inl short)
  · rw [buffered.bytes file.length (Nat.not_lt.mp short)]
    exact (or_iff_right short).symm

/-- After every history, `cat` prints exactly an existing file without NUL bytes
when it is shorter than 512 bytes, or what earlier files left behind it starts
with a zero. -/
theorem cat_shows_file_iff {block : Vector (BitVec 8) 524288} {history : List FileEntry}
    (ran : runAll runEntry history (.start block) = some t) (pathFree : 0#8 ∉ path)
    (onePath : 0x20#8 ∉ path) (found : files path = some file) (nulFree : 0#8 ∉ file)
    (small : file.length < 524288) :
    ShowsFile (catEntry path rest rootMounted files) file t ↔
      file.length < 512 ∨ leftover block.toList history file.length = some 0#8 := by
  rcases run_leftover ran with ⟨length, bytes⟩
  have whole : t.fileBuf.length = 524288 := by
    rw [length]
    exact block.length_toList
  rw [showsFile_iff pathFree onePath found nulFree whole small]
  by_cases short : file.length < 512
  · simp only [short, true_or]
  · rw [bytes file.length (Nat.not_lt.mp short)]
    rfl

end Cat

/-- A cleared block. -/
def zeroBlock : Vector (BitVec 8) 524288 := Vector.replicate 524288 0#8

/-- Two files, of 512 and of 513 bytes. -/
def twoFiles : Files := fun path =>
  if path = bytes "a" then some (List.replicate 512 0x61#8)
  else if path = bytes "b" then some (List.replicate 513 0x62#8)
  else none

theorem twoFiles_a : twoFiles (bytes "a") = some (List.replicate 512 0x61#8) :=
  if_pos rfl

theorem twoFiles_b : twoFiles (bytes "b") = some (List.replicate 513 0x62#8) :=
  (if_neg (by decide)).trans (if_pos rfl)

theorem zeroBlock_zero {p : Nat} (inside : p < 524288) :
    zeroBlock.toList[p]? = some 0#8 := by
  rw [zeroBlock, Vector.toList_replicate, List.getElem?_replicate_of_lt inside]

theorem replicate_nulFree {n : Nat} {ch : BitVec 8} (present : ch ≠ 0#8) :
    0#8 ∉ List.replicate n ch :=
  fun member => present (List.eq_of_mem_replicate member).symm

theorem cat_shows_file_iff_first_file :
    ShowsFile (catEntry (bytes "a") [] false twoFiles) (List.replicate 512 0x61#8)
        (.start zeroBlock) ↔
      (List.replicate 512 0x61#8).length < 512 ∨
        leftover zeroBlock.toList [] (List.replicate 512 0x61#8).length = some 0#8 :=
  cat_shows_file_iff rfl (by decide) (by decide) twoFiles_a
    (replicate_nulFree (by decide)) (by rw [List.length_replicate]; decide)

/-- `cat b` and then `cat a`: behind the 512 bytes of `a` comes the last byte of
`b`. -/
theorem shorter_file_shows_more :
    ∃ t, runAll runEntry [catEntry (bytes "b") [] false twoFiles] (.start zeroBlock) =
        some t ∧
      ¬ ShowsFile (catEntry (bytes "a") [] false twoFiles) (List.replicate 512 0x61#8)
        t := by
  have longer : (List.replicate 513 0x62#8).length = 513 := List.length_replicate
  have shorter : (List.replicate 512 0x61#8).length = 512 := List.length_replicate
  have first : ShowsFile (catEntry (bytes "b") [] false twoFiles)
      (List.replicate 513 0x62#8) (.start zeroBlock) :=
    (showsFile_iff (by decide) (by decide) twoFiles_b (replicate_nulFree (by decide))
      zeroBlock.length_toList (by rw [longer]; decide)).mpr
      (Or.inr (by rw [longer]; exact zeroBlock_zero (by decide)))
  rcases first with ⟨t, ran, -⟩
  have ranAll : runAll runEntry [catEntry (bytes "b") [] false twoFiles]
      (.start zeroBlock) = some t := by
    rw [runAll_cons, ran]
    rfl
  rcases run_leftover ranAll with ⟨length, left⟩
  have second : ShowsFile (catEntry (bytes "a") [] false twoFiles)
      (List.replicate 512 0x61#8) t ↔ _ :=
    showsFile_iff (by decide) (by decide) twoFiles_a (replicate_nulFree (by decide))
      (length.trans zeroBlock.length_toList) (by rw [shorter]; decide)
  have buffered : t.fileBuf[512]? = some 0x62#8 := by
    rw [left 512 (Nat.le_refl _), leftover, List.foldl_cons, List.foldl_nil,
      readBy_cat (by decide) (by decide), twoFiles_b, readOver, Option.bind_some,
      List.getElem?_replicate_of_lt (by decide), Option.some_or]
  refine ⟨t, ranAll, ?_⟩
  rw [second, shorter, buffered]
  decide

end Os88.KernelTerminal
