/-
Module: Os88.Installer.Install
Purpose: The functions of the installer behind the choice of the partition, as calls of
  the operating system: the programs that each of them runs, one after the other, and
  what it leaves of the environment and of the files.
Trusted boundary: the calls of the operating system are recorded; process ids, the
  listing of a directory, the unique id and what a program does to the files are
  parameters, and `_setenv` sets the variable.  The texts on the screen are left out.
Main exports: Event, World, System, install, installMain, Ended, Waited, commandsOf, Did,
  getEnv_of_some, Installed, install_cases, install_outcome, System.Brings,
  setup_before_answers
-/
import Os88.Installer.AnswerFile
import Os88.Installer.Environment
import Os88.Installer.PartitionChoice

namespace Os88.Installer

open Decimal (decimal)
open StringLib (bytes)
open Templates

/-! ## The system -/

/-- A call of the operating system. -/
inductive Event where
  | format (device : Text)
  | mount (dest device filesystem : Text)
  | spawn (pid : Nat) (program : Text) (args : List Text)
  | wait (pid : Nat)
  | kill (pid : Nat)
deriving DecidableEq, Repr

structure World where
  files : Files
  env : Text → Option Text
  /-- The lines that were not read yet. -/
  input : List Text
  events : List Event

/-- What the installer finds outside its own code: `_getenv` on an environment, the
process id of the next program, the files a program leaves, the entries of a directory
and the unique id of the installation. -/
structure System where
  getenv : (Text → Option Text) → Getenv
  pid : List Event → Nat
  program : Text → List Text → (Text → Option Text) → Files → Files
  entries : Files → Text → List Text
  uuid : Text

def World.call (w : World) (made : Event) : World := { w with events := w.events ++ [made] }

def World.setenv (w : World) (name value : Text) : World :=
  { w with env := Function.update w.env name (some value) }

section Functions

variable (sys : System)

def World.getEnv (w : World) (name : Text) : Option Text :=
  Installer.getEnv (sys.getenv w.env) name

def spawn (program : Text) (args : List Text) (w : World) : Nat × World :=
  let pid := sys.pid w.events
  (pid, { w.call (.spawn pid program args) with
    files := sys.program program args w.env w.files })

/-- `_wait(_spawn(..))` -/
def spawnAndWait (program : Text) (args : List Text) (w : World) : World :=
  let (pid, w) := spawn sys program args w
  w.call (.wait pid)

/-! ## The functions of the installer -/

def installPackage (packageFile dest : Text) (w : World) : Option World := do
  let sysdrive ← w.getEnv sys (bytes "SYSTEMDRIVE")
  let packagePath := sysdrive ++ bytes ":/os/cmd/package.elx"
  return spawnAndWait sys packagePath [bytes "install", packageFile, dest] w

def copyFiles (mountpoint : Text) (w : World) : Option (Bool × World) := do
  let sysdrive ← w.getEnv sys (bytes "SYSTEMDRIVE")
  let datapath := sysdrive ++ bytes ":/packages/base.pkf"
  let kernelpath := sysdrive ++ bytes ":/packages/kernel.pkf"
  let installpath := sysdrive ++ bytes ":/packages/install.pkf"
  let w ← installPackage sys datapath (mountpoint ++ bytes ":/os") w
  let w ← installPackage sys kernelpath (mountpoint ++ bytes ":/os/boot") w
  let w ← installPackage sys installpath (mountpoint ++ bytes ":/os/install") w
  return (true, w)

def makeTar (dir tar : Text) (w : World) : Option World := do
  let sysdrive ← w.getEnv sys (bytes "SYSTEMDRIVE")
  let tarpath := sysdrive ++ bytes ":/os/cmd/tar.elx"
  let cwd ← w.getEnv sys (bytes "CWD")
  let w := w.setenv (bytes "CWD") dir
  let files := sys.entries w.files dir
  let w := spawnAndWait sys tarpath ([bytes "cvf", tar] ++ files) w
  return w.setenv (bytes "CWD") cwd

def configureInstall (mountpoint : Text) (part : PartitionInfo) (w : World) :
    Option World := do
  let files ← configureFiles mountpoint part w.files
  let inittar := mountpoint ++ bytes ":/os/boot/init.tar"
  let initfspath := mountpoint ++ bytes ":/os/boot/initfs"
  makeTar sys initfspath inittar { w with files := files }

/-- The file that names the installation, and its name in the configuration of the loader. -/
def writeUuid (mountpoint : Text) (files : Files) : Option Files :=
  let loadcfgpath := mountpoint ++ bytes ":/os/boot/grub/load_cfg"
  let uuidfile := mountpoint ++ bytes ":/os/boot/" ++ sys.uuid ++ bytes ".id"
  let written := bytes "This file identifies this installation during boot.\n"
  replaceInFile loadcfgpath (bytes "$UUID$") sys.uuid
    (Function.update files uuidfile (some written))

def mkimArgs (mountpoint : Text) : List Text :=
  [bytes "-O", bytes "i386-pc", bytes "-d", bytes "/os/boot/grub/i386-pc",
    bytes "--prefix=/os/boot/grub/i386-pc", bytes "-o", bytes "/os/boot/grub/i386-pc/core.img",
    bytes "biosdisk", bytes "msdospart", bytes "part_msdos", bytes "fat", bytes "search",
    bytes "configfile", bytes "multiboot", bytes "-c",
    mountpoint ++ bytes ":/os/boot/grub/load_cfg"]

def biosArgs (device : Text) : List Text :=
  [bytes "-vv", bytes "-d", bytes "/os/boot/grub/i386-pc", device]

def installGrub (mountpoint : Text) (part : PartitionInfo) (w : World) :
    Option (Bool × World) := do
  let files ← writeUuid sys mountpoint w.files
  let w := { w with files := files }
  let mkim := mountpoint ++ bytes ":/os/boot/grub/grubmkim.elx"
  let cwd ← w.getEnv sys (bytes "CWD")
  let w := w.setenv (bytes "CWD") (mountpoint ++ bytes ":/")
  let w := spawnAndWait sys mkim (mkimArgs mountpoint) w
  let bios := mountpoint ++ bytes ":/os/boot/grub/grubbios.elx"
  let w := spawnAndWait sys bios (biosArgs part.path) w
  let (answer, input) ← yesno 0x79#8 w.input
  let w := { w with input := input }
  let w := if answer then spawnAndWait sys bios (biosArgs part.devicepath) w else w
  return (true, w.setenv (bytes "CWD") cwd)

def setupRegistry (w : World) : Option (Nat × World) := do
  let sysdrive ← w.getEnv sys (bytes "SYSTEMDRIVE")
  let regCmd := sysdrive ++ bytes ":/os/system/registry.elx"
  let (regpid, w) := spawn sys regCmd [bytes "-f", bytes ":memory:"] w
  return (regpid, w.setenv (bytes "REGISTRY_PID") (decimal regpid))

def finaliseRegistry (mountpoint : Text) (registryPid : Nat) (w : World) : World :=
  let regCmd := mountpoint ++ bytes ":/os/cmd/reg.elx"
  let regPath := mountpoint ++ bytes ":/os/config/registry.db"
  let w := spawnAndWait sys regCmd [bytes "backup", regPath] w
  w.call (.kill registryPid)

def mountPartition (part : PartitionInfo) (w : World) : Text × World :=
  (bytes "hdd", w.call (.mount (bytes "hdd") part.path (bytes "FAT")))

/-- `main` behind `select_partition` -/
def install (partition : PartitionInfo) (w : World) : Option World := do
  let (mountpoint, w) := mountPartition partition w
  let (regpid, w) ← setupRegistry sys w
  let (copied, w) ← copyFiles sys mountpoint w
  if copied then
    let w ← configureInstall sys mountpoint partition w
    let (rootinstall, w) ← installGrub sys mountpoint partition w
    let files ← writeAnswers mountpoint partition rootinstall w.files
    return finaliseRegistry sys mountpoint regpid { w with files := files }
  else return w.call (.kill regpid)

/-- The lines behind those that `select_partition` reads. -/
def linesBehind (devices : List Device) (leftover : Nat → Int) (input : List Text)
    (fuel : Nat) : Option (List Text) := do
  let listing ← probe devices
  match ← selectLoop listing.selectmap leftover fuel 0 input with
  | .quit => none
  | .selected _ _ rest => (yesno 0x6E#8 rest).map Prod.snd

/-- `exit(0)` in `select_partition`, or the end of `main`. -/
inductive Ended where
  | exits (w : World)
  | installed (w : World)

def installMain (devices : List Device) (leftover : Nat → Int) (fuel : Nat) (w : World) :
    Option Ended := do
  match ← selectPartition devices leftover w.input fuel with
  | .exits => return .exits w
  | .returns selection => do
      let rest ← linesBehind devices leftover w.input fuel
      let w := { w with
        input := rest
        events := w.events ++ selection.formatted.map .format }
      let w ← install sys selection.ret w
      return .installed w

end Functions

/-! ## Programs one after the other -/

/-- Every program is waited for before the next call. -/
inductive Waited : List Event → Prop where
  | nil : Waited []
  | next (pid : Nat) (program : Text) (args : List Text) {events : List Event}
      (later : Waited events) : Waited (.spawn pid program args :: .wait pid :: events)

theorem Waited.append {first second : List Event} (one : Waited first)
    (two : Waited second) : Waited (first ++ second) := by
  induction one with
  | nil => exact two
  | next pid program args later inductionHypothesis =>
      exact .next pid program args inductionHypothesis

/-- The programs that were started, with their arguments. -/
def commandsOf (events : List Event) : List (Text × List Text) :=
  events.filterMap fun
    | .spawn _ program args => some (program, args)
    | _ => none

/-- Some commands were run one after the other, and the environment is what it was. -/
structure Did (w w' : World) (commands : List (Text × List Text)) : Prop where
  env : w'.env = w.env
  ran : ∃ events, w'.events = w.events ++ events ∧ Waited events ∧
    commandsOf events = commands

theorem did_files (w : World) (files : Files) : Did w { w with files := files } [] :=
  ⟨rfl, [], (List.append_nil _).symm, .nil, rfl⟩

theorem did_input (w : World) (input : List Text) : Did w { w with input := input } [] :=
  ⟨rfl, [], (List.append_nil _).symm, .nil, rfl⟩

theorem Did.trans {w w' w'' : World} {first second : List (Text × List Text)}
    (one : Did w w' first) (two : Did w' w'' second) : Did w w'' (first ++ second) := by
  rcases one.ran with ⟨events, ran, waited, same⟩
  rcases two.ran with ⟨events', ran', waited', same'⟩
  refine ⟨two.env.trans one.env, events ++ events', ?_, waited.append waited', ?_⟩
  · rw [ran', ran, List.append_assoc]
  · rw [commandsOf, List.filterMap_append]
    exact congrArg₂ _ same same'

section Commands

variable {sys : System} {w w' : World} {mountpoint : Text} {part : PartitionInfo}

theorem did_spawnAndWait (sys : System) (program : Text) (args : List Text) (w : World) :
    Did w (spawnAndWait sys program args w) [(program, args)] := by
  refine ⟨rfl, [.spawn (sys.pid w.events) program args, .wait (sys.pid w.events)], ?_,
    .next _ _ _ .nil, rfl⟩
  exact List.append_assoc _ _ _

/-- What `get_env` returns, it found in the environment. -/
theorem getEnv_of_some {getenv : Getenv} {env : Text → Option Text} {name value : Text}
    (meets : getenv.Meets env) (got : getEnv getenv name = some value) :
    env name = some value := by
  cases set : env name with
  | none =>
      rw [getEnv_of_unset meets set] at got
      cases got
  | some held =>
      by_cases short : held.length ≤ 127
      · rw [getEnv_of_short meets set short] at got
        exact got
      · rw [getEnv_of_long meets set (by omega)] at got
        cases got

/-- A variable that is set to something else for one program, and set back. -/
theorem Did.set_back {name value held : Text} {commands : List (Text × List Text)}
    (was : w.env name = some held) (did : Did (w.setenv name value) w' commands) :
    Did w (w'.setenv name held) commands := by
  refine ⟨?_, did.ran⟩
  show Function.update w'.env name (some held) = w.env
  rw [did.env]
  show Function.update (Function.update w.env name (some value)) name (some held) = w.env
  rw [Function.update_idem, ← was, Function.update_eq_self]

/-! ## What each function runs -/

theorem installPackage_cases {packageFile dest : Text}
    (ran : installPackage sys packageFile dest w = some w') :
    ∃ program, w' = spawnAndWait sys program [bytes "install", packageFile, dest] w := by
  rw [installPackage, Option.bind_eq_bind] at ran
  rcases Option.bind_eq_some_iff.mp ran with ⟨sysdrive, -, same⟩
  rw [Option.pure_def, Option.some.injEq] at same
  exact ⟨_, same.symm⟩

theorem copyFiles_cases {copied : Bool}
    (ran : copyFiles sys mountpoint w = some (copied, w')) :
    copied = true ∧ ∃ base kernel installer program program' program'',
      w' = spawnAndWait sys program''
          [bytes "install", installer, mountpoint ++ bytes ":/os/install"]
        (spawnAndWait sys program'
            [bytes "install", kernel, mountpoint ++ bytes ":/os/boot"]
          (spawnAndWait sys program [bytes "install", base, mountpoint ++ bytes ":/os"] w)) := by
  rw [copyFiles, Option.bind_eq_bind] at ran
  rcases Option.bind_eq_some_iff.mp ran with ⟨sysdrive, -, first⟩
  rcases Option.bind_eq_some_iff.mp first with ⟨w₁, ran₁, second⟩
  rcases Option.bind_eq_some_iff.mp second with ⟨w₂, ran₂, third⟩
  rcases Option.bind_eq_some_iff.mp third with ⟨w₃, ran₃, same⟩
  rcases installPackage_cases ran₁ with ⟨program, rfl⟩
  rcases installPackage_cases ran₂ with ⟨program', rfl⟩
  rcases installPackage_cases ran₃ with ⟨program'', rfl⟩
  rw [Option.pure_def, Option.some.injEq, Prod.mk.injEq] at same
  exact ⟨same.1.symm, _, _, _, _, _, _, same.2.symm⟩

theorem makeTar_cases {dir tar : Text} (meets : (sys.getenv w.env).Meets w.env)
    (ran : makeTar sys dir tar w = some w') :
    ∃ cwd program files, w.env (bytes "CWD") = some cwd ∧
      w' = (spawnAndWait sys program ([bytes "cvf", tar] ++ files)
        (w.setenv (bytes "CWD") dir)).setenv (bytes "CWD") cwd := by
  rw [makeTar, Option.bind_eq_bind] at ran
  rcases Option.bind_eq_some_iff.mp ran with ⟨sysdrive, -, rest⟩
  rcases Option.bind_eq_some_iff.mp rest with ⟨cwd, got, same⟩
  rw [Option.pure_def, Option.some.injEq] at same
  exact ⟨cwd, _, _, getEnv_of_some meets got, same.symm⟩

theorem configureInstall_cases
    (ran : configureInstall sys mountpoint part w = some w') :
    ∃ files, configureFiles mountpoint part w.files = some files ∧
      makeTar sys (mountpoint ++ bytes ":/os/boot/initfs")
        (mountpoint ++ bytes ":/os/boot/init.tar") { w with files := files } = some w' :=
  Option.bind_eq_some_iff.mp ran

theorem installGrub_cases {rootinstall : Bool} (meets : (sys.getenv w.env).Meets w.env)
    (ran : installGrub sys mountpoint part w = some (rootinstall, w')) :
    ∃ files cwd answer input, writeUuid sys mountpoint w.files = some files ∧
      w.env (bytes "CWD") = some cwd ∧ yesno 0x79#8 w.input = some (answer, input) ∧
      rootinstall = true ∧
      let bios := mountpoint ++ bytes ":/os/boot/grub/grubbios.elx"
      let made := spawnAndWait sys bios (biosArgs part.path)
        (spawnAndWait sys (mountpoint ++ bytes ":/os/boot/grub/grubmkim.elx")
          (mkimArgs mountpoint)
          (World.setenv ⟨files, w.env, w.input, w.events⟩ (bytes "CWD")
            (mountpoint ++ bytes ":/")))
      let asked : World := { made with input := input }
      w' = (if answer then spawnAndWait sys bios (biosArgs part.devicepath) asked
        else asked).setenv (bytes "CWD") cwd := by
  rcases Option.bind_eq_some_iff.mp ran with ⟨files, wrote, rest⟩
  rcases Option.bind_eq_some_iff.mp rest with ⟨cwd, got, rest⟩
  rcases Option.bind_eq_some_iff.mp rest with ⟨⟨answer, input⟩, answered, same⟩
  rw [Option.pure_def, Option.some.injEq, Prod.mk.injEq] at same
  exact ⟨files, cwd, answer, input, wrote, getEnv_of_some meets got, answered, same.1.symm,
    same.2.symm⟩

/-- Commands that write no boot sector. -/
def Other (commands : List (Text × List Text)) : Prop :=
  ∀ command ∈ commands, command.2.head? ≠ some (bytes "-vv")

theorem Other.append {first second : List (Text × List Text)} (one : Other first)
    (two : Other second) : Other (first ++ second) :=
  List.forall_mem_append.mpr ⟨one, two⟩

theorem other_single {program word : Text} {args : List Text} (differs : word ≠ bytes "-vv") :
    Other [(program, word :: args)] := by
  simpa [Other] using differs

theorem did_copyFiles {copied : Bool} (ran : copyFiles sys mountpoint w = some (copied, w')) :
    copied = true ∧ w'.input = w.input ∧ ∃ commands, Did w w' commands ∧ Other commands := by
  rcases copyFiles_cases ran with ⟨isTrue, base, kernel, installer, p, p', p'', rfl⟩
  refine ⟨isTrue, rfl, _, ((did_spawnAndWait sys p _ w).trans
    (did_spawnAndWait sys p' _ _)).trans (did_spawnAndWait sys p'' _ _), ?_⟩
  exact ((other_single (by decide)).append (other_single (by decide))).append
    (other_single (by decide))

theorem did_configureInstall (meets : (sys.getenv w.env).Meets w.env)
    (ran : configureInstall sys mountpoint part w = some w') :
    w'.input = w.input ∧ ∃ commands, Did w w' commands ∧ Other commands := by
  rcases configureInstall_cases ran with ⟨files, -, tar⟩
  rcases @makeTar_cases sys { w with files := files } w' _ _ meets tar with
    ⟨cwd, program, entries, was, rfl⟩
  refine ⟨rfl, _, (did_files w files).trans
    (Did.set_back was (did_spawnAndWait sys _ _ _)), ?_⟩
  exact other_single (by decide)

/-- `grubbios` on a device -/
def bootSectorOn (mountpoint device : Text) : Text × List Text :=
  (mountpoint ++ bytes ":/os/boot/grub/grubbios.elx", biosArgs device)

/-- The answer to the question for the boot sector of the whole disk. -/
def AgreesToMbr (input : List Text) : Prop :=
  (yesno 0x79#8 input).map Prod.fst = some true

instance (input : List Text) : Decidable (AgreesToMbr input) :=
  inferInstanceAs (Decidable (_ = _))

theorem did_installGrub {rootinstall : Bool} (meets : (sys.getenv w.env).Meets w.env)
    (ran : installGrub sys mountpoint part w = some (rootinstall, w')) :
    rootinstall = true ∧ ∃ mkim, Other [mkim] ∧
      Did w w' (mkim :: bootSectorOn mountpoint part.path ::
        if AgreesToMbr w.input then [bootSectorOn mountpoint part.devicepath] else []) := by
  rcases installGrub_cases meets ran with
    ⟨files, cwd, answer, input, -, was, answered, isTrue, rfl⟩
  have agrees : AgreesToMbr w.input ↔ answer = true := by
    rw [AgreesToMbr, answered, Option.map_some, Option.some.injEq]
  have mkim : Other
      [(mountpoint ++ bytes ":/os/boot/grub/grubmkim.elx", mkimArgs mountpoint)] :=
    other_single (by decide)
  have first := ((did_spawnAndWait sys (mountpoint ++ bytes ":/os/boot/grub/grubmkim.elx")
    (mkimArgs mountpoint) (World.setenv ⟨files, w.env, w.input, w.events⟩ (bytes "CWD")
      (mountpoint ++ bytes ":/"))).trans
    (did_spawnAndWait sys (mountpoint ++ bytes ":/os/boot/grub/grubbios.elx")
      (biosArgs part.path) _)).trans (did_input _ input)
  refine ⟨isTrue, _, mkim, ?_⟩
  cases answer with
  | true =>
      rw [if_pos (agrees.mpr rfl)]
      exact (did_files w files).trans
        (Did.set_back was (first.trans (did_spawnAndWait sys _ _ _)))
  | false =>
      rw [if_neg fun yes => absurd (agrees.mp yes) (by decide)]
      exact (did_files w files).trans (Did.set_back was first)

end Commands

/-! ## The whole installation -/

/-- What an installation leaves: one variable in the environment, and the programs of the
installation, all of them waited for, between the start of the registry and its end. -/
structure Installed (part : PartitionInfo) (registry : Nat) (w w' : World) : Prop where
  env : w'.env = Function.update w.env (bytes "REGISTRY_PID") (some (decimal registry))
  ran : ∃ program children, w'.events = w.events ++
      [.mount (bytes "hdd") part.path (bytes "FAT"),
        .spawn registry program [bytes "-f", bytes ":memory:"]] ++
      children ++ [.kill registry] ∧ Waited children ∧
    bootSectorOn (bytes "hdd") part.path ∈ commandsOf children ∧
    (bootSectorOn (bytes "hdd") part.devicepath ∈ commandsOf children ↔
      AgreesToMbr w.input)

/-- `_getenv` behaves as documented on every environment without NULs in its values. -/
def System.Faithful (sys : System) : Prop :=
  ∀ env : Text → Option Text, (∀ name value, env name = some value → 0#8 ∉ value) →
    (sys.getenv env).Meets env

section Whole

variable {sys : System} {w w' : World} {part : PartitionInfo}

theorem nulFree_decimal (n : Nat) : 0#8 ∉ decimal n := by
  intro member
  exact absurd (Decimal.isDigit_of_mem member) (by decide)

/-- The registry is started behind the mount, and its process id is put in the environment. -/
theorem setupRegistry_cases {registry : Nat}
    (ran : setupRegistry sys w = some (registry, w')) :
    ∃ program,
      w'.env = Function.update w.env (bytes "REGISTRY_PID") (some (decimal registry)) ∧
      w'.input = w.input ∧
      w'.events = w.events ++ [.spawn registry program [bytes "-f", bytes ":memory:"]] := by
  rw [setupRegistry, Option.bind_eq_bind] at ran
  rcases Option.bind_eq_some_iff.mp ran with ⟨sysdrive, -, same⟩
  rw [Option.pure_def, Option.some.injEq, Prod.mk.injEq] at same
  rcases same with ⟨rfl, rfl⟩
  exact ⟨_, rfl, rfl, rfl⟩

/-- The steps of an installation. -/
theorem install_cases (ran : install sys part w = some w') :
    ∃ registry w₁ w₂ w₃ w₄ files rootinstall,
      setupRegistry sys (mountPartition part w).2 = some (registry, w₁) ∧
      copyFiles sys (bytes "hdd") w₁ = some (true, w₂) ∧
      configureInstall sys (bytes "hdd") part w₂ = some w₃ ∧
      installGrub sys (bytes "hdd") part w₃ = some (rootinstall, w₄) ∧
      writeAnswers (bytes "hdd") part rootinstall w₄.files = some files ∧
      w' = finaliseRegistry sys (bytes "hdd") registry { w₄ with files := files } := by
  rw [install, Option.bind_eq_bind] at ran
  rcases Option.bind_eq_some_iff.mp ran with ⟨⟨registry, w₁⟩, registered, rest⟩
  rcases Option.bind_eq_some_iff.mp rest with ⟨⟨copied, w₂⟩, copying, rest⟩
  obtain rfl := (copyFiles_cases copying).1
  rcases Option.bind_eq_some_iff.mp rest with ⟨w₃, configured, rest⟩
  rcases Option.bind_eq_some_iff.mp rest with ⟨⟨rootinstall, w₄⟩, grub, rest⟩
  rcases Option.bind_eq_some_iff.mp rest with ⟨files, answered, same⟩
  rw [Option.pure_def, Option.some.injEq] at same
  exact ⟨registry, w₁, w₂, w₃, w₄, files, rootinstall, registered, copying, configured, grub,
    answered, same.symm⟩

/-- The environment with the process id of the registry has no NULs either. -/
theorem nulFree_registry (start : ∀ name value, w.env name = some value → 0#8 ∉ value)
    (registry : Nat) (name value : Text)
    (set : Function.update w.env (bytes "REGISTRY_PID") (some (decimal registry)) name =
      some value) : 0#8 ∉ value := by
  rw [Function.update_apply] at set
  split at set
  · rw [← Option.some.inj set]
    exact nulFree_decimal registry
  · exact start name value set

theorem install_outcome (faithful : sys.Faithful)
    (start : ∀ name value, w.env name = some value → 0#8 ∉ value)
    (differ : part.path ≠ part.devicepath) (ran : install sys part w = some w') :
    ∃ registry, Installed part registry w w' := by
  rcases install_cases ran with ⟨registry, w₁, w₂, w₃, w₄, files, rootinstall, registered,
    copying, configured, grub, -, rfl⟩
  rcases setupRegistry_cases registered with ⟨program, env₁, input₁, events₁⟩
  have meets₁ : (sys.getenv w₁.env).Meets w₁.env := by
    apply faithful
    rw [env₁]
    exact nulFree_registry start registry
  rcases did_copyFiles copying with ⟨-, input₂, copied, did₂, other₂⟩
  have meets₂ : (sys.getenv w₂.env).Meets w₂.env := by rwa [did₂.env]
  rcases did_configureInstall meets₂ configured with ⟨input₃, made, did₃, other₃⟩
  have meets₃ : (sys.getenv w₃.env).Meets w₃.env := by rwa [did₃.env]
  rcases did_installGrub meets₃ grub with ⟨-, mkim, otherMkim, did₄⟩
  have did := ((((did₂.trans did₃).trans did₄).trans (did_files w₄ files)).trans
    (did_spawnAndWait sys (bytes "hdd" ++ bytes ":/os/cmd/reg.elx")
      [bytes "backup", bytes "hdd" ++ bytes ":/os/config/registry.db"] _))
  rcases did.ran with ⟨children, ranChildren, waited, commands⟩
  have input : w₃.input = w.input := (input₃.trans input₂).trans input₁
  refine ⟨registry, did.env.trans env₁, program, children, ?_, waited, ?_, ?_⟩
  · show _ ++ [Event.kill registry] = _
    rw [ranChildren, events₁]
    simp [mountPartition, World.call]
  · rw [commands]
    simp
  · have notOther : ∀ {commands : List (Text × List Text)}, Other commands →
        bootSectorOn (bytes "hdd") part.devicepath ∉ commands :=
      fun other member => other _ member rfl
    have notPath : bootSectorOn (bytes "hdd") part.devicepath ≠
        bootSectorOn (bytes "hdd") part.path := by
      intro same
      simp [bootSectorOn, biosArgs] at same
      exact differ same.symm
    have notBackup := notOther (@other_single (bytes "hdd" ++ bytes ":/os/cmd/reg.elx")
      (bytes "backup") [bytes "hdd" ++ bytes ":/os/config/registry.db"] (by decide))
    rw [commands, input]
    have notMkim := notOther otherMkim
    have notCopied := notOther other₂
    have notMade := notOther other₃
    rw [List.mem_singleton] at notBackup notMkim
    by_cases agrees : AgreesToMbr w.input
    · simp [agrees]
    · simp [agrees, notCopied, notMade, notMkim, notPath, notBackup]

/-! ## The answers that are recorded -/

def setupPath : Text := bytes "hdd" ++ bytes ":/os/install/setup.ini"

/-- The third package brings `setup.ini` with its placeholders, and no program that is not
run to install a package changes it. -/
structure System.Brings (sys : System) (t : AnswerFile) : Prop where
  brings : ∀ program file env files,
    sys.program program [bytes "install", file, bytes "hdd" ++ bytes ":/os/install"] env
      files setupPath = some t.source
  leaves : ∀ program word args env files, word ≠ bytes "install" →
    sys.program program (word :: args) env files setupPath = files setupPath

theorem replaceInFile_other {file placholder replacement path : Text} {files files' : Files}
    (other : path ≠ file) (ran : replaceInFile file placholder replacement files = some files') :
    files' path = files path := by
  rcases Option.bind_eq_some_iff.mp ran with ⟨str, -, same⟩
  rw [← Option.some.inj same, Function.update_of_ne other]

theorem configureFiles_other {mountpoint path : Text} {files files' : Files}
    (other : path ≠ mountpoint ++ bytes ":/os/boot/initfs/config.ini")
    (ran : configureFiles mountpoint part files = some files') :
    files' path = files path := by
  rcases Option.bind_eq_some_iff.mp ran with ⟨middle, first, second⟩
  rw [replaceInFile_other other second, replaceInFile_other other first]

/-- The names below `/os/boot/` are not the one of `setup.ini`. -/
theorem setupPath_ne_boot (name : Text) :
    setupPath ≠ bytes "hdd" ++ bytes ":/os/boot/" ++ name := by
  intro same
  have front := congrArg (List.take 9) same
  rw [List.take_append_of_le_length (by decide)] at front
  exact absurd front (by decide)

theorem writeUuid_setup {files files' : Files}
    (ran : writeUuid sys (bytes "hdd") files = some files') :
    files' setupPath = files setupPath := by
  have loader : setupPath ≠ bytes "hdd" ++ bytes ":/os/boot/grub/load_cfg" := by decide
  rw [replaceInFile_other loader ran]
  refine Function.update_of_ne ?_ _ _
  rw [List.append_assoc (bytes "hdd" ++ bytes ":/os/boot/")]
  exact setupPath_ne_boot _

/-- Up to the answers the file is the one that the package brought. -/
theorem setup_before_answers {t : AnswerFile} (brings : sys.Brings t) {w₁ w₂ w₃ w₄ : World}
    {rootinstall copied : Bool} (meets : (sys.getenv w₁.env).Meets w₁.env)
    (copying : copyFiles sys (bytes "hdd") w₁ = some (copied, w₂))
    (configured : configureInstall sys (bytes "hdd") part w₂ = some w₃)
    (grub : installGrub sys (bytes "hdd") part w₃ = some (rootinstall, w₄)) :
    rootinstall = true ∧ w₄.files setupPath = some t.source := by
  rcases did_copyFiles copying with ⟨-, -, copied, did₂, -⟩
  have meets₂ : (sys.getenv w₂.env).Meets w₂.env := by rwa [did₂.env]
  rcases did_configureInstall meets₂ configured with ⟨-, made, did₃, -⟩
  have meets₃ : (sys.getenv w₃.env).Meets w₃.env := by rwa [did₃.env]
  have brought : w₂.files setupPath = some t.source := by
    rcases copyFiles_cases copying with ⟨-, base, kernel, installer, p, p', p'', rfl⟩
    exact brings.brings p'' installer _ _
  have kept : w₃.files setupPath = some t.source := by
    rcases configureInstall_cases configured with ⟨files, ran, tar⟩
    rcases @makeTar_cases sys { w₂ with files := files } w₃ _ _ meets₂ tar with
      ⟨cwd, program, entries, -, rfl⟩
    refine (brings.leaves program _ _ _ _ (by decide)).trans ?_
    exact (configureFiles_other (by decide) ran).trans brought
  rcases installGrub_cases meets₃ grub with
    ⟨files, cwd, answer, input, wrote, -, -, isTrue, rfl⟩
  have written : files setupPath = some t.source := (writeUuid_setup wrote).trans kept
  refine ⟨isTrue, ?_⟩
  have bios : ∀ device env files, sys.program
      (bytes "hdd" ++ bytes ":/os/boot/grub/grubbios.elx") (biosArgs device) env files
        setupPath = files setupPath :=
    fun device env files => brings.leaves _ _ _ env files (by decide)
  have mkim : ∀ env files, sys.program
      (bytes "hdd" ++ bytes ":/os/boot/grub/grubmkim.elx") (mkimArgs (bytes "hdd")) env files
        setupPath = files setupPath :=
    fun env files => brings.leaves _ _ _ env files (by decide)
  cases answer with
  | true =>
      refine (bios part.devicepath _ _).trans ?_
      refine (bios part.path _ _).trans ?_
      exact (mkim _ _).trans written
  | false =>
      refine (bios part.path _ _).trans ?_
      exact (mkim _ _).trans written

end Whole

end Os88.Installer
