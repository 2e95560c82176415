/-
Module: Os88.Library.Storage
Purpose: A store behind a memory: commands that copy cells from the memory to the
  store and back, and what a cell holds after a history of them.
Trusted boundary: none
Main exports: State, Command, Command.Saves, run, run_append, step_store_kept, store_kept,
  store_of_last_save, load_of_last_save, memory_of_sets
-/
import Mathlib.Data.List.Basic

namespace Storage

variable {α μ ν : Type}

/-- The cells of the store have addresses in `α`, those of the memory in `μ`. -/
structure State (α μ ν : Type) where
  store : α → ν
  memory : μ → ν

/-- `save` and `load` say where the new value of a cell comes from, if it gets one. -/
inductive Command (α μ ν : Type) where
  | save (source : α → Option μ)
  | load (source : μ → Option α)
  | set (source : μ → Option ν)

def step (s : State α μ ν) : Command α μ ν → State α μ ν
  | .save source => { s with store := fun a => (source a).elim (s.store a) s.memory }
  | .load source => { s with memory := fun p => (source p).elim (s.memory p) s.store }
  | .set source => { s with memory := fun p => (source p).getD (s.memory p) }

/-- The state after a history of commands. -/
def run (commands : List (Command α μ ν)) (s : State α μ ν) : State α μ ν :=
  commands.foldl step s

/-- The command stores into the cell. -/
def Command.Saves (a : α) : Command α μ ν → Prop
  | .save source => (source a).isSome
  | .load _ => False
  | .set _ => False

variable {s : State α μ ν} {a : α} {p q : μ}

theorem run_append (first second : List (Command α μ ν)) (s : State α μ ν) :
    run (first ++ second) s = run second (run first s) :=
  List.foldl_append

theorem step_store_kept {command : Command α μ ν} (kept : ¬ command.Saves a) :
    (step s command).store a = s.store a := by
  cases command with
  | save source =>
      have none : source a = none := Option.not_isSome_iff_eq_none.mp kept
      show (source a).elim _ _ = _
      rw [none, Option.elim_none]
  | load source => rfl
  | set source => rfl

/-- A cell keeps its value as long as nothing is saved to it. -/
theorem store_kept {commands : List (Command α μ ν)}
    (kept : ∀ command ∈ commands, ¬ command.Saves a) :
    (run commands s).store a = s.store a := by
  induction commands generalizing s with
  | nil => rfl
  | cons command rest inductionHypothesis =>
      have later := inductionHypothesis (s := step s command) fun other member =>
        kept other (List.mem_cons_of_mem command member)
      exact later.trans (step_store_kept (kept command (List.mem_cons_self ..)))

/-- A cell holds what the memory held when the cell was last saved to. -/
theorem store_of_last_save {before after : List (Command α μ ν)} {source : α → Option μ}
    (saved : source a = some p) (last : ∀ command ∈ after, ¬ command.Saves a) :
    (run (before ++ .save source :: after) s).store a = (run before s).memory p := by
  have later : (run after (step (run before s) (.save source))).store a = _ := store_kept last
  rw [run_append]
  refine later.trans ?_
  show (source a).elim _ _ = _
  rw [saved, Option.elim_some]

/-- Loading the cell brings that value back. -/
theorem load_of_last_save {before after : List (Command α μ ν)} {source : α → Option μ}
    {target : μ → Option α} (saved : source a = some p)
    (last : ∀ command ∈ after, ¬ command.Saves a) (loaded : target q = some a) :
    (run (before ++ .save source :: after ++ [.load target]) s).memory q =
      (run before s).memory p := by
  rw [run_append, ← store_of_last_save saved last]
  show (target q).elim _ _ = _
  rw [loaded, Option.elim_some]

/-- A memory whose cells are only set holds in each what was set last. -/
theorem memory_of_sets (sources : List (μ → Option ν)) (s : State α μ ν) (p : μ) :
    (run (sources.map .set) s).memory p =
      (sources.reverse.findSome? fun source => source p).getD (s.memory p) := by
  induction sources generalizing s with
  | nil => rfl
  | cons source rest inductionHypothesis =>
      have later := inductionHypothesis (step s (.set source))
      rw [List.reverse_cons, List.findSome?_append]
      refine later.trans ?_
      cases found : rest.reverse.findSome? fun source => source p with
      | some value => rfl
      | none =>
          rw [List.findSome?_singleton, Option.none_or, Option.getD_none]
          rfl

end Storage
