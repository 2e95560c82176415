/-
Module: Os88.Installer.InstallRuns
Purpose: Runs of the whole installer: that they come to their end, what they leave behind,
  and the answers that they record.
Trusted boundary: as in Os88.Installer.Install.
Main exports: HasVariables, System.Provides, install_returns, returned_offered,
  installMain_cases, main_reaps_and_restores, main_records_answers
-/
import Os88.Installer.Install

namespace Os88.Installer

open Decimal (decimal)
open StringLib (bytes)
open Templates

section Whole

variable {sys : System} {w w' : World} {part : PartitionInfo}

/-! ## An installation comes to its end -/

/-- The variables that the installer asks for, at a length that `get_env` returns. -/
structure HasVariables (env : Text → Option Text) : Prop where
  drive : ∃ value, env (bytes "SYSTEMDRIVE") = some value ∧ value.length ≤ 127
  cwd : ∃ value, env (bytes "CWD") = some value ∧ value.length ≤ 127

/-- The files that are filled in. -/
def filledIn : List Text :=
  [setupPath, bytes "hdd" ++ bytes ":/os/boot/initfs/config.ini",
    bytes "hdd" ++ bytes ":/os/boot/grub/load_cfg"]

/-- The third package brings the files that are filled in, and no program removes them. -/
structure System.Provides (sys : System) : Prop where
  brings : ∀ program file env files, ∀ path ∈ filledIn,
    (sys.program program [bytes "install", file, bytes "hdd" ++ bytes ":/os/install"] env files
      path).isSome
  keeps : ∀ program args env files, ∀ path ∈ filledIn, (files path).isSome →
    (sys.program program args env files path).isSome

def Present (files : Files) : Prop := ∀ path ∈ filledIn, (files path).isSome

theorem getEnv_returns {name value : Text} (meets : (sys.getenv w.env).Meets w.env)
    (set : w.env name = some value) (short : value.length ≤ 127) :
    w.getEnv sys name = some value :=
  getEnv_of_short meets set short

theorem present_replaceInFile {file placholder replacement : Text} {files : Files}
    (present : Present files) (member : file ∈ filledIn) :
    ∃ files', replaceInFile file placholder replacement files = some files' ∧ Present files' := by
  rcases Option.isSome_iff_exists.mp (present file member) with ⟨str, held⟩
  refine ⟨_, by rw [replaceInFile, held]; rfl, fun path inside => ?_⟩
  rw [Function.update_apply]
  split
  · rfl
  · exact present path inside

theorem present_spawnAndWait (provides : sys.Provides) (program : Text) (args : List Text)
    (present : Present w.files) : Present (spawnAndWait sys program args w).files :=
  fun path member => provides.keeps program args w.env w.files path member (present path member)

theorem present_setenv (name value : Text) {w : World} (present : Present w.files) :
    Present (w.setenv name value).files := present

theorem present_asked (provides : sys.Provides) (answer : Bool) (program : Text)
    (args input : List Text) (name value : Text) {w : World} (present : Present w.files) :
    Present (World.setenv (if answer then spawnAndWait sys program args { w with input := input }
      else { w with input := input }) name value).files := by
  cases answer with
  | true => exact @present_spawnAndWait sys { w with input := input } provides program args present
  | false => exact present

theorem installPackage_returns (meets : (sys.getenv w.env).Meets w.env)
    (known : HasVariables w.env) (packageFile dest : Text) :
    ∃ w', installPackage sys packageFile dest w = some w' ∧ w'.env = w.env ∧
      ∃ program, w'.files =
        sys.program program [bytes "install", packageFile, dest] w.env w.files := by
  rcases known.drive with ⟨sysdrive, set, short⟩
  refine ⟨spawnAndWait sys (sysdrive ++ bytes ":/os/cmd/package.elx") _ w, ?_, rfl, _, rfl⟩
  rw [installPackage, getEnv_returns meets set short]
  rfl

theorem copyFiles_returns (provides : sys.Provides) (meets : (sys.getenv w.env).Meets w.env)
    (known : HasVariables w.env) :
    ∃ w', copyFiles sys (bytes "hdd") w = some (true, w') ∧ Present w'.files := by
  rcases known.drive with ⟨sysdrive, set, short⟩
  have drive := getEnv_returns meets set short
  rcases installPackage_returns meets known (sysdrive ++ bytes ":/packages/base.pkf")
    (bytes "hdd" ++ bytes ":/os") with ⟨w₁, ran₁, env₁, -⟩
  rw [← env₁] at meets known
  rcases installPackage_returns meets known (sysdrive ++ bytes ":/packages/kernel.pkf")
    (bytes "hdd" ++ bytes ":/os/boot") with ⟨w₂, ran₂, env₂, -⟩
  rw [← env₂] at meets known
  rcases installPackage_returns meets known (sysdrive ++ bytes ":/packages/install.pkf")
    (bytes "hdd" ++ bytes ":/os/install") with ⟨w₃, ran₃, -, program, files₃⟩
  refine ⟨w₃, ?_, fun path member => ?_⟩
  · simp only [copyFiles, drive, ran₁, ran₂, ran₃, Option.bind_eq_bind, Option.bind_some]
    rfl
  · rw [files₃]
    exact provides.brings program _ _ _ path member

theorem makeTar_returns {sysdrive cwd : Text} (dir tar : Text)
    (drive : w.getEnv sys (bytes "SYSTEMDRIVE") = some sysdrive)
    (directory : w.getEnv sys (bytes "CWD") = some cwd) :
    makeTar sys dir tar w =
      some ((spawnAndWait sys (sysdrive ++ bytes ":/os/cmd/tar.elx")
        ([bytes "cvf", tar] ++ sys.entries w.files dir)
        (w.setenv (bytes "CWD") dir)).setenv (bytes "CWD") cwd) := by
  simp only [makeTar, drive, directory, Option.bind_eq_bind, Option.bind_some, Option.pure_def]
  rfl

theorem configureInstall_eq {mountpoint : Text} {files : Files}
    (configured : configureFiles mountpoint part w.files = some files) :
    configureInstall sys mountpoint part w =
      makeTar sys (mountpoint ++ bytes ":/os/boot/initfs")
        (mountpoint ++ bytes ":/os/boot/init.tar") { w with files := files } := by
  rw [configureInstall, configured, Option.bind_eq_bind, Option.bind_some]

theorem configureInstall_returns (provides : sys.Provides)
    (meets : (sys.getenv w.env).Meets w.env) (known : HasVariables w.env)
    (present : Present w.files) (part : PartitionInfo) :
    ∃ w', configureInstall sys (bytes "hdd") part w = some w' ∧ Present w'.files := by
  have member : bytes "hdd" ++ bytes ":/os/boot/initfs/config.ini" ∈ filledIn := by
    simp [filledIn]
  rcases present_replaceInFile present member with ⟨middle, first, presentMiddle⟩
  rcases present_replaceInFile presentMiddle member with ⟨files, second, presentFiles⟩
  have configured : configureFiles (bytes "hdd") part w.files = some files := by
    rw [configureFiles, first]
    exact second
  rcases known.drive with ⟨sysdrive, setDrive, shortDrive⟩
  rcases known.cwd with ⟨cwd, setCwd, shortCwd⟩
  have tar := @makeTar_returns sys { w with files := files } sysdrive cwd
    (bytes "hdd" ++ bytes ":/os/boot/initfs") (bytes "hdd" ++ bytes ":/os/boot/init.tar")
    (getEnv_returns meets setDrive shortDrive) (getEnv_returns meets setCwd shortCwd)
  refine ⟨_, (configureInstall_eq configured).trans tar, ?_⟩
  exact present_setenv _ _ (present_spawnAndWait provides _ _ (present_setenv _ _ presentFiles))

theorem yesno_yes (rest : List Text) : ∃ answer, yesno 0x79#8 rest = some answer := by
  induction rest with
  | nil => exact ⟨(true, []), rfl⟩
  | cons line rest inductionHypothesis =>
      rw [yesno]
      split_ifs
      · exact ⟨(true, rest), rfl⟩
      · exact ⟨(false, rest), rfl⟩
      · exact ⟨(true, rest), rfl⟩
      · exact ⟨(false, rest), rfl⟩
      · exact inductionHypothesis

theorem present_writeUuid {files : Files} (present : Present files) :
    ∃ files', writeUuid sys (bytes "hdd") files = some files' ∧ Present files' := by
  have member : bytes "hdd" ++ bytes ":/os/boot/grub/load_cfg" ∈ filledIn := by simp [filledIn]
  refine present_replaceInFile (fun path inside => ?_) member
  rw [Function.update_apply]
  split
  · rfl
  · exact present path inside

/-- `install_grub` behind the writing of the two files, in front of the question. -/
def grubStarted (sys : System) (part : PartitionInfo) (files : Files) (w : World) : World :=
  spawnAndWait sys (bytes "hdd" ++ bytes ":/os/boot/grub/grubbios.elx") (biosArgs part.path)
    (spawnAndWait sys (bytes "hdd" ++ bytes ":/os/boot/grub/grubmkim.elx")
      (mkimArgs (bytes "hdd"))
      (World.setenv { w with files := files } (bytes "CWD") (bytes "hdd" ++ bytes ":/")))

theorem installGrub_eq {files : Files} {cwd : Text} {answer : Bool} {input : List Text}
    (wrote : writeUuid sys (bytes "hdd") w.files = some files)
    (directory : World.getEnv sys { w with files := files } (bytes "CWD") = some cwd)
    (answered : yesno 0x79#8 w.input = some (answer, input)) :
    installGrub sys (bytes "hdd") part w =
      some (true, World.setenv (if answer then
          spawnAndWait sys (bytes "hdd" ++ bytes ":/os/boot/grub/grubbios.elx")
            (biosArgs part.devicepath)
            { grubStarted sys part files w with input := input }
        else { grubStarted sys part files w with input := input }) (bytes "CWD") cwd) := by
  rw [installGrub, wrote, Option.bind_eq_bind, Option.bind_some]
  simp only [directory, Option.bind_eq_bind, Option.bind_some]
  have asked : (grubStarted sys part files w).input = w.input := rfl
  rw [grubStarted] at asked
  rw [asked, answered, Option.bind_some]
  rfl

theorem installGrub_returns (provides : sys.Provides) (meets : (sys.getenv w.env).Meets w.env)
    (known : HasVariables w.env) (present : Present w.files) (part : PartitionInfo) :
    ∃ rootinstall w', installGrub sys (bytes "hdd") part w = some (rootinstall, w') ∧
      Present w'.files := by
  rcases @present_writeUuid sys _ present with ⟨files, wrote, presentFiles⟩
  rcases known.cwd with ⟨cwd, set, short⟩
  rcases yesno_yes w.input with ⟨⟨answer, input⟩, answered⟩
  have directory := @getEnv_returns sys { w with files := files } _ _ meets set short
  have made : Present (grubStarted sys part files w).files :=
    present_spawnAndWait provides _ _
      (present_spawnAndWait provides _ _ (present_setenv _ _ presentFiles))
  exact ⟨_, _, installGrub_eq wrote directory answered,
    present_asked provides answer _ _ input _ _ made⟩

theorem install_eq {registry : Nat} {w₁ w₂ w₃ w₄ : World} {rootinstall : Bool}
    {files : Files}
    (registered : setupRegistry sys (mountPartition part w).2 = some (registry, w₁))
    (copying : copyFiles sys (bytes "hdd") w₁ = some (true, w₂))
    (configured : configureInstall sys (bytes "hdd") part w₂ = some w₃)
    (grub : installGrub sys (bytes "hdd") part w₃ = some (rootinstall, w₄))
    (answered : writeAnswers (bytes "hdd") part rootinstall w₄.files = some files) :
    install sys part w =
      some (finaliseRegistry sys (bytes "hdd") registry { w₄ with files := files }) := by
  have mounted : (mountPartition part w).1 = bytes "hdd" := rfl
  simp only [install, mounted, registered, copying, configured, grub, answered,
    Option.bind_eq_bind, Option.bind_some, if_true]
  rfl

/-- With the variables set and the files brought, the installation comes to its end. -/
theorem install_returns (faithful : sys.Faithful) (provides : sys.Provides)
    (start : ∀ name value, w.env name = some value → 0#8 ∉ value)
    (known : HasVariables w.env) (part : PartitionInfo) :
    ∃ w', install sys part w = some w' := by
  have kept : ∀ registry, HasVariables (Function.update w.env (bytes "REGISTRY_PID")
      (some (decimal registry))) := by
    intro registry
    have drive : bytes "SYSTEMDRIVE" ≠ bytes "REGISTRY_PID" := by decide
    have cwd : bytes "CWD" ≠ bytes "REGISTRY_PID" := by decide
    exact ⟨by simpa only [Function.update_of_ne drive] using known.drive,
      by simpa only [Function.update_of_ne cwd] using known.cwd⟩
  have meets : (sys.getenv w.env).Meets w.env := faithful w.env start
  rcases known.drive with ⟨sysdrive, setDrive, shortDrive⟩
  have registered : ∃ registry w₁,
      setupRegistry sys (mountPartition part w).2 = some (registry, w₁) := by
    have found := @getEnv_returns sys (mountPartition part w).2 _ _ meets setDrive shortDrive
    exact ⟨_, _, by rw [setupRegistry, found, Option.bind_eq_bind, Option.bind_some]; rfl⟩
  rcases registered with ⟨registry, w₁, registered⟩
  rcases setupRegistry_cases registered with ⟨program, env₁, -, -⟩
  have meets₁ : (sys.getenv w₁.env).Meets w₁.env := by
    apply faithful
    rw [env₁]
    exact nulFree_registry start registry
  have known₁ : HasVariables w₁.env := by
    rw [env₁]
    exact kept registry
  rcases copyFiles_returns provides meets₁ known₁ with ⟨w₂, copying, present₂⟩
  rcases did_copyFiles copying with ⟨-, -, copied, did₂, -⟩
  have meets₂ : (sys.getenv w₂.env).Meets w₂.env := by rwa [did₂.env]
  have known₂ : HasVariables w₂.env := by rwa [did₂.env]
  rcases configureInstall_returns provides meets₂ known₂ present₂ part with
    ⟨w₃, configured, present₃⟩
  rcases did_configureInstall meets₂ configured with ⟨-, made, did₃, -⟩
  have meets₃ : (sys.getenv w₃.env).Meets w₃.env := by rwa [did₃.env]
  have known₃ : HasVariables w₃.env := by rwa [did₃.env]
  rcases installGrub_returns provides meets₃ known₃ present₃ part with
    ⟨rootinstall, w₄, grub, present₄⟩
  rcases Option.isSome_iff_exists.mp (present₄ setupPath (by simp [filledIn])) with ⟨str, held⟩
  have answered := writeAnswers_setup (bytes "hdd") part rootinstall held
  exact ⟨_, install_eq registered copying configured grub answered⟩

end Whole

/-! ## Runs of the installer -/

section Runs

variable {sys : System} {devices : List Device} {leftover : Nat → Int} {fuel : Nat}
  {w w' : World}

/-- A partition is not its device, and what is returned was on offer. -/
theorem returned_offered {selection : Selection}
    (returned : selectPartition devices leftover w.input fuel = some (.returns selection)) :
    selection.ret ∈ offered devices ∧ selection.ret.path ≠ selection.ret.devicepath ∧
      ∀ device ∈ selection.formatted, device = selection.ret.path := by
  rcases probe_cases devices with ⟨listing, probed, agrees, -⟩ | ⟨failed, -⟩
  · rcases takes_of_returned probed agrees returned with
      ⟨k, info, confirmed, takes, -, -, rfl⟩
    have found := takes.2.2
    have member : info ∈ offered devices := by
      rw [listed] at found
      split at found
      · exact List.mem_of_getElem? found
      · cases found
    refine ⟨member, ?_, ?_⟩
    · rcases List.mem_flatMap.mp member with ⟨device, -, inDevice⟩
      rw [Device.offered] at inDevice
      split at inDevice
      · rcases List.mem_map.mp inDevice with ⟨part, -, rfl⟩
        intro same
        have lengths := congrArg List.length same
        simp only [selection, partitionInfo, List.length_append] at lengths
        have letter : (bytes "P").length = 1 := by decide
        omega
      · cases inDevice
    · intro device formatted
      rw [selection] at formatted ⊢
      cases confirmed <;> simp_all
  · rw [selectPartition, failed] at returned
    cases returned

theorem installMain_cases {ended : Ended}
    (ran : installMain sys devices leftover fuel w = some ended) :
    ended = .exits w ∨ ∃ selection rest w',
      selectPartition devices leftover w.input fuel = some (.returns selection) ∧
      linesBehind devices leftover w.input fuel = some rest ∧
      install sys selection.ret { w with
        input := rest
        events := w.events ++ selection.formatted.map .format } = some w' ∧
      ended = .installed w' := by
  rcases Option.bind_eq_some_iff.mp ran with ⟨outcome, selected, rest⟩
  cases outcome with
  | exits => exact Or.inl (Option.some.inj rest).symm
  | returns selection =>
      rcases Option.bind_eq_some_iff.mp rest with ⟨lines, behind, rest⟩
      rcases Option.bind_eq_some_iff.mp rest with ⟨w', installed, same⟩
      exact Or.inr ⟨selection, lines, w', selected, behind, installed,
        (Option.some.inj same).symm⟩

theorem installMain_eq {selection : Selection} {rest : List Text}
    (returned : selectPartition devices leftover w.input fuel = some (.returns selection))
    (behind : linesBehind devices leftover w.input fuel = some rest)
    (installed : install sys selection.ret { w with
      input := rest
      events := w.events ++ selection.formatted.map .format } = some w') :
    installMain sys devices leftover fuel w = some (.installed w') := by
  simp only [installMain, returned, behind, installed, Option.bind_eq_bind, Option.bind_some]
  rfl

/-- A run of the installer either exits before it has changed anything, or it formats no
partition but the one it returns, waits for every program before the next call, ends the
registry it has started, and leaves the environment as it was but for the number of that
process.  The boot sector of the disk is written when the question is not denied. -/
theorem main_reaps_and_restores {ended : Ended} (faithful : sys.Faithful)
    (start : ∀ name value, w.env name = some value → 0#8 ∉ value)
    (ran : installMain sys devices leftover fuel w = some ended) :
    ended = .exits w ∨ ∃ selection rest w' registry,
      ended = .installed w' ∧
      selectPartition devices leftover w.input fuel = some (.returns selection) ∧
      linesBehind devices leftover w.input fuel = some rest ∧
      (∀ device ∈ selection.formatted, device = selection.ret.path) ∧
      Installed selection.ret registry
        { w with input := rest, events := w.events ++ selection.formatted.map .format } w' := by
  rcases installMain_cases ran with exits | ⟨selection, rest, w', returned, behind, installed, rfl⟩
  · exact Or.inl exits
  · right
    rcases returned_offered returned with ⟨-, differ, formatted⟩
    rcases @install_outcome sys { w with
        input := rest
        events := w.events ++ selection.formatted.map .format } w' selection.ret faithful start
      differ installed with ⟨registry, outcome⟩
    exact ⟨selection, rest, w', registry, rfl, returned, behind, formatted, outcome⟩

end Runs

/-- A machine whose packages bring one file to every place. -/
def onePackage : System where
  getenv := Getenv.copying
  pid := fun events => events.length + 2
  program := fun _ args _ files =>
    if args.head? = some (bytes "install") then fun _ => some threePlaceholders.source else files
  entries := fun _ _ => [bytes "config.ini"]
  uuid := bytes "0F"

/-- The first partition is chosen and formatted, and the boot sector of the disk is to be
left alone. -/
def noMbr : World where
  files := fun _ => none
  env := fun name =>
    if name = bytes "SYSTEMDRIVE" then some (bytes "cd0")
    else if name = bytes "CWD" then some (bytes "cd0:/")
    else none
  input := [bytes "1", bytes "y", bytes "n"]
  events := []

theorem onePackage_faithful : onePackage.Faithful :=
  fun _ nulFree => copying_meets fun {name value} set => nulFree name value set

theorem onePackage_provides : onePackage.Provides where
  brings := fun _ _ _ _ _ _ => rfl
  keeps := by
    intro program args env files path _ present
    show ((if _ then _ else _ : Files) path).isSome
    split
    · rfl
    · exact present

theorem onePackage_brings : onePackage.Brings threePlaceholders where
  brings := fun _ _ _ _ => rfl
  leaves := by
    intro program word args env files other
    show (if _ then _ else _ : Files) setupPath = _
    rw [if_neg (by simpa using other)]

theorem noMbr_nulFree (name value : Text) (set : noMbr.env name = some value) :
    0#8 ∉ value := by
  simp only [noMbr] at set
  split at set
  · rw [← Option.some.inj set]
    decide
  · split at set
    · rw [← Option.some.inj set]
      decide
    · cases set

theorem noMbr_hasVariables : HasVariables noMbr.env :=
  ⟨⟨_, rfl, by decide⟩, ⟨_, rfl, by decide⟩⟩

theorem noMbr_returned : selectPartition [oneDisk (bytes "fat32")] (fun _ => 0)
    noMbr.input 1 = some (.returns ⟨⟨bytes "hd0P0", bytes "hd0", bytes "fat32"⟩, bytes "1",
      [bytes "hd0P0"], [.welcome, .device (bytes "hd0"), .partition 1
        ⟨bytes "hd0P0", bytes "hd0", bytes "fat32"⟩ 1048576]⟩) := rfl

theorem noMbr_behind : linesBehind [oneDisk (bytes "fat32")] (fun _ => 0) noMbr.input 1 =
    some [bytes "n"] := rfl

theorem noMbr_installed : ∃ w', installMain onePackage [oneDisk (bytes "fat32")]
    (fun _ => 0) 1 noMbr = some (.installed w') := by
  rcases @install_returns onePackage { noMbr with
      input := [bytes "n"]
      events := [.format (bytes "hd0P0")] } onePackage_faithful onePackage_provides
    noMbr_nulFree noMbr_hasVariables ⟨bytes "hd0P0", bytes "hd0", bytes "fat32"⟩ with
    ⟨w', installed⟩
  exact ⟨w', installMain_eq noMbr_returned noMbr_behind installed⟩

/-- The boot sector of the disk is not written. -/
theorem main_reaps_and_restores_noMbr :
    onePackage.Faithful ∧ (∀ name value, noMbr.env name = some value → 0#8 ∉ value) ∧
      ∃ w', installMain onePackage [oneDisk (bytes "fat32")] (fun _ => 0) 1 noMbr =
          some (.installed w') ∧
        w'.env (bytes "CWD") = some (bytes "cd0:/") ∧
        ∃ front registry children, w'.events = front ++ children ++ [.kill registry] ∧
          Waited children ∧ bootSectorOn (bytes "hdd") (bytes "hd0") ∉ commandsOf children := by
  rcases noMbr_installed with ⟨w', ran⟩
  refine ⟨onePackage_faithful, noMbr_nulFree, w', ran, ?_⟩
  rcases main_reaps_and_restores onePackage_faithful noMbr_nulFree ran with
    exits | ⟨selection, rest, _, registry, same, returned, behind, -, outcome⟩
  · cases exits
  · cases same
    rw [noMbr_returned] at returned
    rw [noMbr_behind] at behind
    cases returned
    cases behind
    rcases outcome.ran with ⟨program, children, events, waited, -, mbr⟩
    refine ⟨?_, _, registry, children, events, waited, ?_⟩
    · rw [outcome.env, Function.update_of_ne (by decide)]
      rfl
    · exact fun written => absurd (mbr.mp written) (by decide)

section Runs

variable {sys : System} {devices : List Device} {leftover : Nat → Int} {fuel : Nat}
  {w w' : World}

end Runs

end Os88.Installer
