/-
Module: Os88.Installer.PartitionChoice
Purpose: `select_partition` of install.cpp: the partitions that are offered, the number
  that the user types, and the file system that the record of the partition names.
Trusted boundary: libparted enters with what it finds on the devices.  The streams
  follow their documented behaviour; behind the end of the input every line is empty.
  The texts of the questions are left out.
Main exports: Device, Shown, probe, selectLoop, yesno, selectPartition,
  ChoosesPrinted, offered, Readable, PassesOver, Takes, Confirms, probe_cases,
  takes_of_selected, selected_of_takes, selection_sound_iff,
  choosesPrinted_iff
-/
import Mathlib.Data.List.GetD
import Os88.Installer.Placeholders
import Os88.Library.Execution
import Os88.Library.Numeral

namespace Os88.Installer

open Decimal Execution Numeral
open StringLib (bytes)

/-! ## The partitions that are offered -/

structure Partition where
  num : Int
  length : BitVec 64
  fsType : Option Text

/-- A device, with the name of the type of its partition table, if one is found, and its
partitions, if they can be read. -/
structure Device where
  path : Text
  sectorSize : BitVec 64
  diskType : Option Text
  disk : Option (List Partition)

def humanSize (size : BitVec 64) : Text :=
  let size := size.toNat
  if size < 1024 then decimal size ++ bytes " Bytes"
  else if size < 1048576 then decimal (size / 1024) ++ bytes " KB"
  else if size < 1073741824 then decimal (size / 1048576) ++ bytes " MB"
  else if size < 1099511627776 then decimal (size / 1073741824) ++ bytes " GB"
  else decimal (size / 1099511627776) ++ bytes " TB"

def partitionInfo (device : Device) (part : Partition) : PartitionInfo where
  path := device.path ++ bytes "P" ++ decimal (part.num - 1).toNat
  devicepath := device.path
  fs := part.fsType.getD (bytes "unformatted")

/-- A line of the list on the screen. -/
inductive Shown where
  | welcome
  | device (path : Text)
  | partition (index : Int) (info : PartitionInfo) (size : BitVec 64)
  | incompatible

def Shown.text : Shown → Text
  | welcome => bytes "Please select a partition to install to:"
  | device path => path ++ bytes ":"
  | partition index info size =>
      decimal index.toNat ++ bytes ": " ++ info.path ++ bytes ": " ++ humanSize size ++
        bytes " " ++ info.fs
  | incompatible => bytes "Missing or incompatible partition table."

structure Probing where
  counter : Int
  selectmap : Int → Option PartitionInfo
  shown : List Shown

/-- The body of the loop over the partitions.  An overflow of the counter is a fault. -/
def probePartition (device : Device) (s : Probing) (part : Partition) : Option Probing :=
  if 0 < part.num then
    if s.counter = INT_MAX then none
    else
      let info := partitionInfo device part
      let index := s.counter + 1
      some {
        counter := index
        selectmap := Function.update s.selectmap index (some info)
        shown := s.shown ++ [.partition index info (part.length * device.sectorSize)] }
  else some s

/-- The body of the loop over the devices.  The name of a missing type is a fault, and so
are the partitions of a disk that cannot be read. -/
def probeDevice (s : Probing) (device : Device) : Option Probing := do
  let s := { s with shown := s.shown ++ [.device device.path] }
  let type ← device.diskType
  if type = bytes "msdos" then
    let parts ← device.disk
    parts.foldlM (probePartition device) s
  else return { s with shown := s.shown ++ [.incompatible] }

def probe (devices : List Device) : Option Probing :=
  devices.foldlM probeDevice ⟨0, fun _ => none, [.welcome]⟩

/-! ## The selection -/

/-- What the selection loop ends with. -/
inductive Choice where
  | quit
  | selected (line : Text) (ret : PartitionInfo) (rest : List Text)

def getline : List Text → Text × List Text
  | [] => ([], [])
  | line :: rest => (line, rest)

/-- The selection loop, for at most `fuel` lines; `k` lines were read before.  In front
of the extraction the variable `partno` holds whatever was left in its place. -/
def selectLoop (selectmap : Int → Option PartitionInfo) (leftover : Nat → Int) :
    Nat → Nat → List Text → Option Choice
  | 0, _, _ => none
  | fuel + 1, k, input =>
      let (line, rest) := getline input
      if line.head? = some 0x71#8 then some .quit
      else
        let partno := extract (leftover k) line
        match if 0 < partno then selectmap partno else none with
        | some ret => some (.selected line ret rest)
        | none => selectLoop selectmap leftover fuel (k + 1) rest

/-- `yesno` with a default answer.  At the end of the input it goes on for ever, unless
there is one. -/
def yesno (default' : BitVec 8) : List Text → Option (Bool × List Text)
  | [] =>
      if default' = 0x79#8 then some (true, [])
      else if default' = 0x6E#8 then some (false, [])
      else none
  | line :: rest =>
      let c := line.headD 0#8
      if c = 0x79#8 ∨ c = 0x59#8 then some (true, rest)
      else if c = 0x6E#8 ∨ c = 0x4E#8 then some (false, rest)
      else if c = 0#8 ∧ default' = 0x79#8 then some (true, rest)
      else if c = 0#8 ∧ default' = 0x6E#8 then some (false, rest)
      else yesno default' rest

/-- A return, with the last line that the selection loop read, the partitions on which
`_format` was called, and the screen. -/
structure Selection where
  ret : PartitionInfo
  line : Text
  formatted : List Text
  shown : List Shown

inductive Outcome where
  | exits
  | returns (selection : Selection)

def selectPartition (devices : List Device) (leftover : Nat → Int) (input : List Text)
    (fuel : Nat) : Option Outcome := do
  let listing ← probe devices
  match ← selectLoop listing.selectmap leftover fuel 0 input with
  | .quit => return .exits
  | .selected line ret rest =>
      if ret.fs ≠ bytes "fat16" ∧ ret.fs ≠ bytes "fat32" then
        let (format, _) ← yesno 0x6E#8 rest
        if format then return .returns ⟨ret, line, [ret.path], listing.shown⟩
        else return .exits
      else
        let (format, _) ← yesno 0x6E#8 rest
        return .returns ⟨ret, line, if format then [ret.path] else [], listing.shown⟩

/-! ## What it is for -/

def FatType (fs : Text) : Prop :=
  fs = bytes "fat16" ∨ fs = bytes "fat32"

instance (fs : Text) : Decidable (FatType fs) :=
  inferInstanceAs (Decidable (_ ∨ _))

/-- The partition, and no other, is printed beside the number. -/
def Beside (shown : List Shown) (n : Int) (info : PartitionInfo) : Prop :=
  (∃ size, .partition n info size ∈ shown) ∧
    ∀ other size, .partition n other size ∈ shown → other = info

/-- The file system on the selected partition: a formatted one has a FAT type, any other
one the type that was found. -/
def Selection.Present (s : Selection) (info : PartitionInfo) (fs : Text) : Prop :=
  if s.ret.path ∈ s.formatted then FatType fs else fs = info.fs

/-- The partition that is returned is the one beside the number of the last line, and the
file system on it is the one that goes in the place of `$FS$`. -/
def Selection.Sound (s : Selection) : Prop :=
  ∃ n info, Spells s.line n ∧ Beside s.shown n info ∧ s.ret.path = info.path ∧
    s.ret.devicepath = info.devicepath ∧ s.Present info s.ret.fs ∧
    ∀ mountpoint rootinstall,
      (answers mountpoint s.ret rootinstall).lookup (bytes "$FS$") = some s.ret.fs

def ChoosesPrinted (devices : List Device) (leftover : Nat → Int) (input : List Text) :
    Prop :=
  ∀ fuel s, selectPartition devices leftover input fuel = some (.returns s) → s.Sound

/-! ## When it is reached -/

/-- The partitions of a device that are offered. -/
def Device.offered (device : Device) : List PartitionInfo :=
  if device.diskType = some (bytes "msdos") then
    ((device.disk.getD []).filter (0 < ·.num)).map (partitionInfo device)
  else []

def offered (devices : List Device) : List PartitionInfo :=
  devices.flatMap Device.offered

/-- The type of the partition table is found, and its partitions can be read. -/
def Device.Readable (device : Device) : Prop :=
  ∃ type, device.diskType = some type ∧ (type = bytes "msdos" → device.disk ≠ none)

/-- The list on the screen can be made. -/
def Readable (devices : List Device) : Prop :=
  (∀ device ∈ devices, device.Readable) ∧ ((offered devices).length : Int) ≤ INT_MAX

/-- The partition with a number. -/
def listed (infos : List PartitionInfo) (n : Int) : Option PartitionInfo :=
  if 0 < n then infos[(n - 1).toNat]? else none

section Conditions

variable (infos : List PartitionInfo) (leftover : Nat → Int) (input : List Text)

/-- A line of the input; behind its end they are all empty. -/
def lineAt (k : Nat) : Text := input.getD k []

/-- What `partno` holds behind the extraction from a line. -/
def partnoAt (k : Nat) : Int := extract (leftover k) (lineAt input k)

/-- The loop goes on behind the line. -/
def PassesOver (k : Nat) : Prop :=
  (lineAt input k).head? ≠ some 0x71#8 ∧ listed infos (partnoAt leftover input k) = none

/-- The loop ends at the line, with a partition. -/
def Takes (k : Nat) (info : PartitionInfo) : Prop :=
  (∀ j < k, PassesOver infos leftover input j) ∧ (lineAt input k).head? ≠ some 0x71#8 ∧
    listed infos (partnoAt leftover input k) = some info

/-- The first answer in the lines behind is not a no. -/
def Confirms (rest : List Text) : Prop :=
  (yesno 0x6E#8 rest).map Prod.fst = some true

instance (rest : List Text) : Decidable (Confirms rest) :=
  inferInstanceAs (Decidable (_ = _))

end Conditions

/-! ## Probing -/

/-- The map and the screen agree on the partitions that were offered. -/
structure Agrees (s : Probing) (infos : List PartitionInfo) : Prop where
  counter : s.counter = infos.length
  small : (infos.length : Int) ≤ INT_MAX
  selectmap : s.selectmap = listed infos
  shown : ∀ n info, (∃ size, .partition n info size ∈ s.shown) ↔ listed infos n = some info

theorem listed_append (infos : List PartitionInfo) (info : PartitionInfo) :
    listed (infos ++ [info]) =
      Function.update (listed infos) (infos.length + 1) (some info) := by
  funext n
  rw [Function.update_apply]
  split
  · next last =>
      have position : (n - 1).toNat = infos.length := by omega
      rw [listed, if_pos (by omega), position, List.getElem?_concat_length]
  · next other =>
      rw [listed, listed]
      split
      · by_cases inside : (n - 1).toNat < infos.length
        · rw [List.getElem?_append_left inside]
        · have length : (infos ++ [info]).length = infos.length + 1 := List.length_append
          rw [List.getElem?_eq_none (by omega), List.getElem?_eq_none (by omega)]
      · rfl

theorem listed_length_succ (infos : List PartitionInfo) :
    listed infos (infos.length + 1) = none := by
  rw [listed, if_pos (by omega)]
  exact List.getElem?_eq_none (by omega)

theorem length_of_listed {infos : List PartitionInfo} {n : Int} {info : PartitionInfo}
    (found : listed infos n = some info) : 0 < n ∧ n ≤ infos.length := by
  rw [listed] at found
  split at found
  · rcases List.getElem?_eq_some_iff.mp found with ⟨inside, -⟩
    omega
  · cases found

section Probes

variable {s : Probing} {infos : List PartitionInfo}

theorem Agrees.nil : Agrees ⟨0, fun _ => none, [.welcome]⟩ [] where
  counter := rfl
  small := by decide
  selectmap := by
    funext n
    rw [listed, List.getElem?_nil, ite_self]
  shown n info := by
    rw [listed, List.getElem?_nil, ite_self]
    simp

/-- A line that is about no partition. -/
theorem Agrees.show (agrees : Agrees s infos) {item : Shown}
    (other : ∀ n info size, item ≠ .partition n info size) :
    Agrees { s with shown := s.shown ++ [item] } infos where
  counter := agrees.counter
  small := agrees.small
  selectmap := agrees.selectmap
  shown n info := by
    rw [← agrees.shown]
    refine exists_congr fun size => ?_
    rw [List.mem_append, List.mem_singleton, or_iff_left (other n info size).symm]

/-- A partition gets the next number. -/
theorem Agrees.add (agrees : Agrees s infos) (room : s.counter ≠ INT_MAX)
    (info : PartitionInfo) (size : BitVec 64) :
    Agrees ⟨s.counter + 1, Function.update s.selectmap (s.counter + 1) (some info),
      s.shown ++ [.partition (s.counter + 1) info size]⟩ (infos ++ [info]) where
  counter := by
    rw [agrees.counter, List.length_append, List.length_singleton]
    rfl
  small := by
    have small := agrees.small
    rw [agrees.counter] at room
    rw [List.length_append, List.length_singleton]
    omega
  selectmap := by
    rw [agrees.selectmap, agrees.counter, listed_append]
  shown n other := by
    rw [listed_append, Function.update_apply, agrees.counter]
    split
    · next last =>
        subst last
        have unused := agrees.shown (infos.length + 1) other
        rw [listed_length_succ] at unused
        simp only [List.mem_append, List.mem_singleton, exists_or, unused,
          Shown.partition.injEq, true_and, Option.some.injEq]
        simp [eq_comm]
    · next differs =>
        rw [← agrees.shown]
        simp only [List.mem_append, List.mem_singleton, Shown.partition.injEq, differs,
          false_and, or_false]

theorem probePartition_cases (device : Device) (s : Probing) (infos : List PartitionInfo)
    (part : Partition) (agrees : Agrees s infos) :
    (∃ s', probePartition device s part = some s' ∧
      Agrees s' (infos ++ if 0 < part.num then [partitionInfo device part] else []) ∧ True) ∨
    (probePartition device s part = none ∧ ¬ (True ∧
      ((infos ++ if 0 < part.num then [partitionInfo device part] else []).length : Int) ≤
        INT_MAX)) := by
  rw [probePartition]
  split
  · split
    · next full =>
        refine Or.inr ⟨rfl, fun short => ?_⟩
        have length := short.2
        rw [agrees.counter] at full
        rw [List.length_append, List.length_singleton] at length
        omega
    · next room => exact Or.inl ⟨_, rfl, agrees.add room _ _, trivial⟩
  · exact Or.inl ⟨s, rfl, by rwa [List.append_nil], trivial⟩

theorem offered_msdos {device : Device} {parts : List Partition}
    (isMsdos : device.diskType = some (bytes "msdos")) (read : device.disk = some parts) :
    device.offered =
      parts.flatMap fun part => if 0 < part.num then [partitionInfo device part] else [] := by
  rw [Device.offered, if_pos isMsdos, read, Option.getD_some]
  clear read
  induction parts with
  | nil => rfl
  | cons part parts inductionHypothesis =>
      rw [List.flatMap_cons, ← inductionHypothesis, List.filter_cons]
      by_cases positive : 0 < part.num <;> simp [positive]

theorem probeDevice_cases (s : Probing) (infos : List PartitionInfo) (device : Device)
    (agrees : Agrees s infos) :
    (∃ s', probeDevice s device = some s' ∧ Agrees s' (infos ++ device.offered) ∧
      device.Readable) ∨
    (probeDevice s device = none ∧ ¬ (device.Readable ∧
      ((infos ++ device.offered).length : Int) ≤ INT_MAX)) := by
  have agrees' : Agrees { s with shown := s.shown ++ [.device device.path] } infos :=
    agrees.show nofun
  cases isType : device.diskType with
  | none =>
      refine Or.inr ⟨by simp [probeDevice, isType], ?_⟩
      rintro ⟨⟨type, isSome, -⟩, -⟩
      cases isType.symm.trans isSome
  | some type =>
      by_cases isMsdos : type = bytes "msdos"
      · rw [isMsdos] at isType
        cases read : device.disk with
        | none =>
            refine Or.inr ⟨by simp [probeDevice, isType, read], ?_⟩
            rintro ⟨⟨other, isSome, known⟩, -⟩
            obtain rfl := Option.some.inj (isType.symm.trans isSome)
            exact known rfl read
        | some parts =>
            have ran : probeDevice s device = parts.foldlM (probePartition device)
                { s with shown := s.shown ++ [.device device.path] } := by
              simp [probeDevice, isType, read]
            have readable : device.Readable :=
              ⟨_, isType, fun _ missing => by cases read.symm.trans missing⟩
            rw [ran, offered_msdos isType read]
            rcases foldlM_cases (probePartition_cases device) parts agrees' with
              ⟨s', ran', agrees'', -⟩ | ⟨failed, unfit⟩
            · exact Or.inl ⟨s', ran', agrees'', readable⟩
            · exact Or.inr ⟨failed, fun ⟨_, short⟩ => unfit ⟨fun _ _ => trivial, short⟩⟩
      · have offersNone : device.offered = [] := by
          rw [Device.offered, if_neg]
          rw [isType]
          exact fun same => isMsdos (Option.some.inj same)
        refine Or.inl ⟨{ s with shown := s.shown ++ [.device device.path] ++ [.incompatible] },
          by simp [probeDevice, isType, isMsdos], ?_, type, isType, fun same => absurd same isMsdos⟩
        rw [offersNone, List.append_nil]
        exact agrees'.show nofun

/-- The list can be made exactly when the devices can be read, and then it shows the
partitions of the devices under the numbers that the map has for them. -/
theorem probe_cases (devices : List Device) :
    (∃ listing, probe devices = some listing ∧ Agrees listing (offered devices) ∧
      Readable devices) ∨
    (probe devices = none ∧ ¬ Readable devices) := by
  rcases foldlM_cases probeDevice_cases devices Agrees.nil with
    ⟨listing, ran, agrees, readable⟩ | ⟨failed, unfit⟩
  · exact Or.inl ⟨listing, ran, agrees, readable, agrees.small⟩
  · exact Or.inr ⟨failed, unfit⟩

end Probes

/-! ## The loop -/

section Loop

variable {infos : List PartitionInfo} {leftover : Nat → Int} {input : List Text}
  {fuel k : Nat} {line : Text} {ret : PartitionInfo} {rest : List Text}

theorem getline_drop (input : List Text) (k : Nat) :
    getline (input.drop k) = (lineAt input k, input.drop (k + 1)) := by
  rcases Nat.lt_or_ge k input.length with inside | behind
  · have next : input.drop k = input[k] :: input.drop (k + 1) := List.drop_eq_getElem_cons inside
    rw [next, getline, lineAt, List.getD_eq_getElem _ _ inside]
  · rw [List.drop_eq_nil_of_le behind, List.drop_eq_nil_of_le (by omega), lineAt,
      List.getD_eq_default _ _ behind]
    rfl

theorem positive_listed (infos : List PartitionInfo) (n : Int) :
    (if 0 < n then listed infos n else none) = listed infos n := by
  rw [listed]
  split <;> rfl

/-- One line. -/
theorem selectLoop_succ (infos : List PartitionInfo) (leftover : Nat → Int)
    (input : List Text) (fuel k : Nat) :
    selectLoop (listed infos) leftover (fuel + 1) k (input.drop k) =
      if (lineAt input k).head? = some 0x71#8 then some .quit
      else match listed infos (partnoAt leftover input k) with
        | some ret => some (.selected (lineAt input k) ret (input.drop (k + 1)))
        | none => selectLoop (listed infos) leftover fuel (k + 1) (input.drop (k + 1)) := by
  rw [selectLoop, getline_drop]
  simp only [positive_listed]
  rfl

/-- The loop ends at the first line that is taken for the number of a partition. -/
theorem takes_of_selected (before : ∀ j < k, PassesOver infos leftover input j)
    (ran : selectLoop (listed infos) leftover fuel k (input.drop k) =
      some (.selected line ret rest)) :
    ∃ i, Takes infos leftover input i ret ∧ line = lineAt input i ∧
      rest = input.drop (i + 1) := by
  induction fuel generalizing k with
  | zero => cases ran
  | succ fuel inductionHypothesis =>
      rw [selectLoop_succ] at ran
      split at ran
      · cases ran
      · next notQuit =>
          split at ran
          · next found =>
              cases ran
              exact ⟨k, ⟨before, notQuit, found⟩, rfl, rfl⟩
          · next missed =>
              refine inductionHypothesis (fun j earlier => ?_) ran
              rcases Nat.lt_succ_iff_lt_or_eq.mp earlier with earlier | rfl
              · exact before j earlier
              · exact ⟨notQuit, missed⟩

theorem selected_of_takes {i : Nat} (takes : Takes infos leftover input i ret) (upTo : k ≤ i) :
    selectLoop (listed infos) leftover (i - k + 1) k (input.drop k) =
      some (.selected (lineAt input i) ret (input.drop (i + 1))) := by
  rcases takes with ⟨before, notQuit, found⟩
  induction distance : i - k generalizing k with
  | zero =>
      obtain rfl : k = i := by omega
      rw [selectLoop_succ, if_neg notQuit, found]
  | succ d inductionHypothesis =>
      rcases before k (by omega) with ⟨noQuit, missed⟩
      rw [selectLoop_succ, if_neg noQuit, missed]
      exact inductionHypothesis (by omega) (by omega)

theorem Takes.positive (takes : Takes infos leftover input k ret) :
    0 < partnoAt leftover input k :=
  (length_of_listed takes.2.2).1

/-- With an answer by default there always is one. -/
theorem yesno_no (rest : List Text) : ∃ answer rest', yesno 0x6E#8 rest = some (answer, rest') := by
  induction rest with
  | nil => exact ⟨false, [], rfl⟩
  | cons line rest inductionHypothesis =>
      rw [yesno]
      split_ifs
      · exact ⟨true, rest, rfl⟩
      · exact ⟨false, rest, rfl⟩
      · exact ⟨true, rest, rfl⟩
      · exact ⟨false, rest, rfl⟩
      · exact inductionHypothesis

end Loop

/-! ## The whole function -/

section Selecting

variable {devices : List Device} {leftover : Nat → Int} {input : List Text} {fuel k : Nat}
  {info : PartitionInfo} {listing : Probing} {s : Selection}

/-- What is returned when the loop has ended. -/
def selection (listing : Probing) (line : Text) (ret : PartitionInfo) (confirmed : Bool) :
    Selection :=
  ⟨ret, line, if confirmed then [ret.path] else [], listing.shown⟩

theorem confirms_iff {rest rest' : List Text} {confirmed : Bool}
    (answered : yesno 0x6E#8 rest = some (confirmed, rest')) :
    Confirms rest ↔ confirmed = true := by
  rw [Confirms, answered, Option.map_some, Option.some.injEq]

/-- Without a FAT file system there is no return but with a new one. -/
theorem selectPartition_selected {line : Text} {ret : PartitionInfo}
    {rest rest' : List Text} {confirmed : Bool} (probed : probe devices = some listing)
    (agrees : Agrees listing (offered devices))
    (ran : selectLoop (listed (offered devices)) leftover fuel 0 input =
      some (.selected line ret rest))
    (answered : yesno 0x6E#8 rest = some (confirmed, rest')) :
    selectPartition devices leftover input fuel =
      if FatType ret.fs ∨ confirmed = true then
        some (.returns (selection listing line ret confirmed))
      else some .exits := by
  rw [← agrees.selectmap] at ran
  simp only [selectPartition, probed, ran, answered, Option.bind_eq_bind, Option.bind_some]
  by_cases fat : FatType ret.fs
  · have compatible : ¬ (ret.fs ≠ bytes "fat16" ∧ ret.fs ≠ bytes "fat32") := by
      rw [not_and_or, not_not, not_not]
      exact fat
    rw [if_neg compatible, if_pos (Or.inl fat)]
    rfl
  · have incompatible : ret.fs ≠ bytes "fat16" ∧ ret.fs ≠ bytes "fat32" := not_or.mp fat
    rw [if_pos incompatible]
    cases confirmed
    · rw [if_neg (not_or.mpr ⟨fat, Bool.false_ne_true⟩)]
      rfl
    · rw [if_pos (Or.inr rfl)]
      rfl

/-- A return is made for the line at which the loop ends. -/
theorem takes_of_returned (probed : probe devices = some listing)
    (agrees : Agrees listing (offered devices))
    (ran : selectPartition devices leftover input fuel = some (.returns s)) :
    ∃ k info confirmed, Takes (offered devices) leftover input k info ∧
      (Confirms (input.drop (k + 1)) ↔ confirmed = true) ∧
      (FatType info.fs ∨ confirmed = true) ∧
      s = selection listing (lineAt input k) info confirmed := by
  cases looped : selectLoop (listed (offered devices)) leftover fuel 0 input with
  | none =>
      rw [← agrees.selectmap] at looped
      simp [selectPartition, probed, looped] at ran
  | some choice =>
      cases choice with
      | quit =>
          rw [← agrees.selectmap] at looped
          simp [selectPartition, probed, looped] at ran
      | selected line ret rest =>
          rcases yesno_no rest with ⟨confirmed, rest', answered⟩
          rw [selectPartition_selected probed agrees looped answered] at ran
          rcases takes_of_selected (fun j early => absurd early (Nat.not_lt_zero j)) looped with
            ⟨k, takes, rfl, rfl⟩
          split at ran
          · next returned =>
              cases ran
              exact ⟨k, ret, confirmed, takes, confirms_iff answered, returned, rfl⟩
          · cases ran

theorem returned_of_takes (probed : probe devices = some listing)
    (agrees : Agrees listing (offered devices))
    (takes : Takes (offered devices) leftover input k info)
    (returned : FatType info.fs ∨ Confirms (input.drop (k + 1))) :
    ∃ confirmed, (Confirms (input.drop (k + 1)) ↔ confirmed = true) ∧
      selectPartition devices leftover input (k + 1) =
        some (.returns (selection listing (lineAt input k) info confirmed)) := by
  have looped := selected_of_takes takes (Nat.zero_le k)
  rcases yesno_no (input.drop (k + 1)) with ⟨confirmed, rest', answered⟩
  have whole := selectPartition_selected probed agrees looped answered
  rw [confirms_iff answered] at returned
  rw [if_pos returned] at whole
  exact ⟨confirmed, confirms_iff answered, whole⟩

theorem Agrees.beside_iff {infos : List PartitionInfo} (agrees : Agrees listing infos)
    (n : Int) (info : PartitionInfo) :
    Beside listing.shown n info ↔ listed infos n = some info := by
  constructor
  · exact fun beside => (agrees.shown n info).mp beside.1
  · intro found
    refine ⟨(agrees.shown n info).mpr found, fun other size member => ?_⟩
    have shown := (agrees.shown n other).mp ⟨size, member⟩
    exact Option.some.inj (shown.symm.trans found)

/-- The line of a partition starts with its number. -/
theorem spells_text {index : Int} (positive : 0 < index) (info : PartitionInfo)
    (size : BitVec 64) : Spells (Shown.partition index info size).text index := by
  have spells := @spells_decimal
    (bytes ": " ++ (info.path ++ (bytes ": " ++ (humanSize size ++ (bytes " " ++ info.fs)))))
    index.toNat (by rintro ch ⟨⟩; decide)
  rw [Int.toNat_of_nonneg (Int.le_of_lt positive)] at spells
  simpa only [Shown.text, List.append_assoc] using spells

theorem lookup_fs (mountpoint : Text) (part : PartitionInfo) (rootinstall : Bool) :
    (answers mountpoint part rootinstall).lookup (bytes "$FS$") = some part.fs := by
  rfl

/-- What is returned is sound when the line was read as what it spells and the
partition kept the type that was found. -/
theorem selection_sound_iff {infos : List PartitionInfo} (agrees : Agrees listing infos)
    (takes : Takes infos leftover input k info) {confirmed : Bool}
    (returned : FatType info.fs ∨ confirmed = true) :
    (selection listing (lineAt input k) info confirmed).Sound ↔
      ¬ Blank (lineAt input k) ∧ (∀ n, Spells (lineAt input k) n → n ≤ INT_MAX) ∧
        FatType info.fs := by
  constructor
  · rintro ⟨n, other, spells, beside, -, -, present, -⟩
    have found := (agrees.beside_iff n other).mp beside
    refine ⟨spells.not_blank, fun n' spells' => ?_, ?_⟩
    · obtain rfl := spells.unique spells'
      exact Int.le_trans (length_of_listed found).2 agrees.small
    · rcases returned with fat | rfl
      · exact fat
      · have formatted : info.path ∈ [info.path] := List.mem_singleton_self _
        exact (if_pos formatted).mp present
  · rintro ⟨notBlank, fits, fat⟩
    refine ⟨partnoAt leftover input k, info, spells_of_extract takes.positive notBlank fits,
      (agrees.beside_iff _ info).mpr takes.2.2, rfl, rfl, ?_, fun mountpoint rootinstall =>
        lookup_fs mountpoint info rootinstall⟩
    rw [Selection.Present]
    split
    · exact fat
    · rfl

/-- When the loop ends at a line and the function returns, a sound selection needs all
three conditions. -/
theorem ChoosesPrinted.conditions (chooses : ChoosesPrinted devices leftover input)
    (readable : Readable devices) (takes : Takes (offered devices) leftover input k info)
    (returned : FatType info.fs ∨ Confirms (input.drop (k + 1))) :
    ¬ Blank (lineAt input k) ∧ (∀ n, Spells (lineAt input k) n → n ≤ INT_MAX) ∧
      FatType info.fs := by
  rcases probe_cases devices with ⟨listing, probed, agrees, -⟩ | ⟨-, unreadable⟩
  · rcases returned_of_takes probed agrees takes returned with ⟨confirmed, iff, ran⟩
    exact (selection_sound_iff agrees takes (returned.imp_right iff.mp)).mp (chooses _ _ ran)
  · exact absurd readable unreadable

/-- The partition beside the number of the last line is returned, with the name of its
file system, exactly when the line at which the loop ends is not blank and its number
fits in an `int`, in front of a FAT partition, and when formatting is declined in front
of any other one. -/
theorem choosesPrinted_iff (devices : List Device) (leftover : Nat → Int)
    (input : List Text) :
    ChoosesPrinted devices leftover input ↔
      (Readable devices → ∀ k info, Takes (offered devices) leftover input k info →
        (FatType info.fs → ¬ Blank (lineAt input k) ∧
          ∀ n, Spells (lineAt input k) n → n ≤ INT_MAX) ∧
        (¬ FatType info.fs → ¬ Confirms (input.drop (k + 1)))) := by
  constructor
  · intro chooses readable k info takes
    refine ⟨fun fat => ?_, fun notFat confirms => ?_⟩
    · rcases chooses.conditions readable takes (Or.inl fat) with ⟨notBlank, fits, -⟩
      exact ⟨notBlank, fits⟩
    · exact notFat (chooses.conditions readable takes (Or.inr confirms)).2.2
  · intro holds fuel s ran
    rcases probe_cases devices with ⟨listing, probed, agrees, readable⟩ | ⟨failed, -⟩
    · rcases takes_of_returned probed agrees ran with
        ⟨k, info, confirmed, takes, iff, returned, rfl⟩
      have conditions := holds readable k info takes
      have fat : FatType info.fs := by
        by_contra notFat
        exact conditions.2 notFat (iff.mpr (returned.resolve_left notFat))
      rcases conditions.1 fat with ⟨notBlank, fits⟩
      exact (selection_sound_iff agrees takes returned).mpr ⟨notBlank, fits, fat⟩
    · rw [selectPartition, failed] at ran
      cases ran

end Selecting

/-! ## A partition that is formatted, and a line that is blank -/

/-- A disk with one partition. -/
def oneDisk (fs : Text) : Device where
  path := bytes "hd0"
  sectorSize := 512
  diskType := some (bytes "msdos")
  disk := some [⟨1, 2048, some fs⟩]

theorem oneDisk_readable (fs : Text) : Readable [oneDisk fs] := by
  refine ⟨fun device member => ?_, ?_⟩
  · obtain rfl := List.mem_singleton.mp member
    exact ⟨_, rfl, nofun⟩
  · show (1 : Int) ≤ INT_MAX
    decide

/-- The partition is formatted, and recorded with the file system that is gone.  The
blank line takes the number that was left in `partno`. -/
theorem not_choosesPrinted_ntfs_blank :
    ¬ ChoosesPrinted [oneDisk (bytes "ntfs")] (fun _ => 0) [bytes "1", bytes "y"] ∧
    ¬ ChoosesPrinted [oneDisk (bytes "fat32")] (fun _ => 1) [bytes " "] := by
  constructor
  · intro chooses
    have takes : Takes (offered [oneDisk (bytes "ntfs")]) (fun _ => 0)
        [bytes "1", bytes "y"] 0 ⟨bytes "hd0P0", bytes "hd0", bytes "ntfs"⟩ :=
      ⟨nofun, by decide, by decide⟩
    have confirms : Confirms [bytes "y"] := by decide
    have conditions := chooses.conditions (oneDisk_readable _) takes (Or.inr confirms)
    exact absurd conditions.2.2 (by decide)
  · intro chooses
    have blank : Blank (lineAt [bytes " "] 0) := by decide
    have takes : Takes (offered [oneDisk (bytes "fat32")]) (fun _ => 1) [bytes " "] 0
        ⟨bytes "hd0P0", bytes "hd0", bytes "fat32"⟩ := by
      refine ⟨nofun, by decide, ?_⟩
      rw [partnoAt, extract_of_blank blank]
      decide
    have conditions := chooses.conditions (oneDisk_readable _) takes (Or.inl (by decide))
    exact conditions.1 blank

end Os88.Installer
