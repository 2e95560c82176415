/-
Module: Os88.Library.Execution
Purpose: Counted loops and command sequences whose steps may fault, with the
  rules that carry an invariant or a simulation through them.
Trusted boundary: none
Main exports: countLoop, countLoop_rule, countLoop_preserves, countLoop_map, runAll,
  runAll_append, runAll_flatMap, runAll_refines, runAll_total, runAll_simulates, RunMeets,
  runAll_total_of_meets, RunKeeps, runAll_simulates_of_meets, runKeeps_iff_meets_within,
  runKeeps_iff_meets,
  runAll_isSome_iff_meets, runMeets_iff_everywhere, foldlM_cases,
  search, search_skip, search_at, search_find
-/
import Mathlib.Data.List.Basic
import Mathlib.Data.List.Infix

namespace Execution

variable {σ ι α : Type}

/-- Run `body` at the `count` consecutive indices from `first` on.  A fault in
one pass is a fault of the loop. -/
def countLoop (body : Nat → σ → Option σ) : Nat → Nat → σ → Option σ
  | _, 0, s => some s
  | first, count + 1, s => (body first s).bind (countLoop body (first + 1) count)

/-- Invariant rule: if every pass succeeds and moves the invariant one index
on, the loop succeeds and ends with the invariant at its bound. -/
theorem countLoop_rule {body : Nat → σ → Option σ} (Inv : Nat → σ → Prop)
    {first count : Nat} {s : σ} (start : Inv first s)
    (pass : ∀ i s, first ≤ i → i < first + count → Inv i s →
      ∃ s', body i s = some s' ∧ Inv (i + 1) s') :
    ∃ s', countLoop body first count s = some s' ∧ Inv (first + count) s' := by
  induction count generalizing first s with
  | zero => exact ⟨s, rfl, start⟩
  | succ count inductionHypothesis =>
      obtain ⟨middle, ran, next⟩ :=
        pass first s (Nat.le_refl first) (by omega) start
      obtain ⟨final, finished, reached⟩ :=
        inductionHypothesis next fun i s lower upper =>
          pass i s (by omega) (by omega)
      refine ⟨final, ?_, ?_⟩
      · simp only [countLoop, ran, Option.bind_some, finished]
      · rwa [show first + (count + 1) = first + 1 + count by omega]

/-- Partial rule: what every successful pass keeps, a loop that succeeds
keeps. -/
theorem countLoop_preserves {body : Nat → σ → Option σ} (Inv : σ → Prop)
    (pass : ∀ i s s', body i s = some s' → Inv s → Inv s') {first count : Nat}
    {s s' : σ} (ran : countLoop body first count s = some s') (start : Inv s) :
    Inv s' := by
  induction count generalizing first s with
  | zero =>
      obtain rfl : s = s' := Option.some.inj ran
      exact start
  | succ count inductionHypothesis =>
      rcases Option.bind_eq_some_iff.mp ran with ⟨middle, once, rest⟩
      exact inductionHypothesis rest (pass first s middle once start)

/-- A loop whose passes cannot fail does not fail. -/
theorem countLoop_total {body : Nat → σ → Option σ}
    (pass : ∀ i s, ∃ s', body i s = some s') (first count : Nat) (s : σ) :
    ∃ s', countLoop body first count s = some s' := by
  have run : ∃ s', countLoop body first count s = some s' ∧ True :=
    countLoop_rule (fun _ _ => True) trivial
      fun i s _ _ _ => (pass i s).imp fun _ ran => ⟨ran, trivial⟩
  exact run.imp fun _ ran => ran.1

/-- A loop whose passes follow those of another one follows that loop. -/
theorem countLoop_map {τ : Type} {body : Nat → σ → Option σ} {other : Nat → τ → Option τ}
    (f : σ → τ) (pass : ∀ i s, other i (f s) = (body i s).map f) (first count : Nat)
    (s : σ) : countLoop other first count (f s) = (countLoop body first count s).map f := by
  induction count generalizing first s with
  | zero => rfl
  | succ count inductionHypothesis =>
      rw [countLoop, countLoop, pass]
      cases body first s with
      | none => rfl
      | some middle => exact inductionHypothesis (first + 1) middle

/-- Run a list of commands from left to right; a fault ends the run. -/
def runAll (step : ι → σ → Option σ) : List ι → σ → Option σ
  | [], s => some s
  | i :: rest, s => (step i s).bind (runAll step rest)

variable {step : ι → σ → Option σ}

theorem runAll_cons (i : ι) (rest : List ι) (s : σ) :
    runAll step (i :: rest) s = (step i s).bind (runAll step rest) := rfl

theorem runAll_append (first second : List ι) (s : σ) :
    runAll step (first ++ second) s =
      (runAll step first s).bind (runAll step second) := by
  induction first generalizing s with
  | nil => rfl
  | cons i rest inductionHypothesis =>
      simp only [List.cons_append, runAll_cons]
      cases step i s with
      | none => rfl
      | some middle => exact inductionHypothesis middle

theorem runAll_concat (before : List ι) (i : ι) (s : σ) :
    runAll step (before ++ [i]) s = (runAll step before s).bind (step i) := by
  rw [runAll_append]
  cases runAll step before s with
  | none => rfl
  | some middle =>
      show (step i middle).bind some = step i middle
      exact Option.bind_fun_some _

/-- Commands that are runs of their own. -/
theorem runAll_flatMap {κ : Type} (parts : κ → List ι) (commands : List κ) (s : σ) :
    runAll step (commands.flatMap parts) s =
      runAll (fun command => runAll step (parts command)) commands s := by
  induction commands generalizing s with
  | nil => rfl
  | cons command rest inductionHypothesis =>
      rw [List.flatMap_cons, runAll_append, runAll_cons]
      cases runAll step (parts command) s with
      | none => rfl
      | some middle => exact inductionHypothesis middle

/-- Refinement rule: steps that agree with those of another system on what is
observed of the state, faults included, make every run agree with it. -/
theorem runAll_refines {τ : Type} {other : ι → τ → Option τ} (Inv : σ → Prop) (observe : σ → τ)
    {commands : List ι} {s : σ} (start : Inv s)
    (pass : ∀ i ∈ commands, ∀ s, Inv s → (step i s).map observe = other i (observe s) ∧
      ∀ s', step i s = some s' → Inv s') :
    (runAll step commands s).map observe = runAll other commands (observe s) := by
  induction commands generalizing s with
  | nil => rfl
  | cons i rest inductionHypothesis =>
      rcases pass i (List.mem_cons_self ..) s start with ⟨same, kept⟩
      rw [runAll_cons, runAll_cons, ← same]
      cases ran : step i s with
      | none => rfl
      | some middle =>
          exact inductionHypothesis (kept middle ran) fun j member =>
            pass j (List.mem_cons_of_mem i member)

/-- Simulation rule: steps that succeed and follow an abstract total step make
every run succeed and follow the abstract fold. -/
theorem runAll_simulates (Rel : σ → α → Prop) (abstract : α → ι → α)
    {commands : List ι} {s : σ} {a : α} (start : Rel s a)
    (pass : ∀ i ∈ commands, ∀ s a, Rel s a →
      ∃ s', step i s = some s' ∧ Rel s' (abstract a i)) :
    ∃ s', runAll step commands s = some s' ∧
      Rel s' (commands.foldl abstract a) := by
  induction commands generalizing s a with
  | nil => exact ⟨s, rfl, start⟩
  | cons i rest inductionHypothesis =>
      rcases pass i (List.mem_cons_self ..) s a start with ⟨middle, ran, kept⟩
      obtain ⟨final, finished, reached⟩ :=
        inductionHypothesis kept fun j member =>
          pass j (List.mem_cons_of_mem i member)
      exact ⟨final, by simp only [runAll_cons, ran, Option.bind_some, finished],
        reached⟩

/-- Total-run rule: steps that succeed under an invariant and keep it make
every run succeed and keep it. -/
theorem runAll_total (Inv : σ → Prop) {commands : List ι} {s : σ}
    (start : Inv s)
    (pass : ∀ i ∈ commands, ∀ s, Inv s → ∃ s', step i s = some s' ∧ Inv s') :
    ∃ s', runAll step commands s = some s' ∧ Inv s' :=
  @runAll_simulates σ ι Unit step (fun s _ => Inv s) (fun _ _ => ()) commands s () start
    fun i member s _ holds => pass i member s holds

/-- Every command of the run meets `condition` in the state it is issued in. -/
def RunMeets (step : ι → σ → Option σ) (condition : ι → σ → Prop) :
    List ι → σ → Prop
  | [], _ => True
  | i :: rest, s =>
      condition i s ∧ ∀ s', step i s = some s' → RunMeets step condition rest s'

/-- Every command of the run succeeds, with a good step. -/
def RunKeeps (step : ι → σ → Option σ) (Good : ι → σ → σ → Prop) :
    List ι → σ → Prop
  | [], _ => True
  | i :: rest, s =>
      ∃ s', step i s = some s' ∧ Good i s s' ∧ RunKeeps step Good rest s'

theorem runKeeps_true_iff {commands : List ι} {s : σ} :
    RunKeeps step (fun _ _ _ => True) commands s ↔
      ∃ s', runAll step commands s = some s' := by
  induction commands generalizing s with
  | nil => exact ⟨fun _ => ⟨s, rfl⟩, fun _ => trivial⟩
  | cons i rest inductionHypothesis =>
      simp only [RunKeeps, inductionHypothesis, runAll_cons, true_and,
        Option.bind_eq_some_iff]
      constructor
      · rintro ⟨middle, ran, final, finished⟩
        exact ⟨final, middle, ran, finished⟩
      · rintro ⟨final, middle, ran, finished⟩
        exact ⟨middle, ran, final, finished⟩

/-- Conditional total-run rule: as `runAll_total`, where a step has to succeed
and keep the invariant only when the run's condition holds at it.  The
conclusion covers every prefix, hence the state after each command. -/
theorem runAll_total_of_meets (Inv : σ → Prop) {condition : ι → σ → Prop}
    {commands : List ι} {s : σ} (start : Inv s)
    (met : RunMeets step condition commands s)
    (pass : ∀ i ∈ commands, ∀ s, Inv s → condition i s →
      ∃ s', step i s = some s' ∧ Inv s') :
    ∀ before, before <+: commands →
      ∃ s', runAll step before s = some s' ∧ Inv s' := by
  induction commands generalizing s with
  | nil =>
      intro before isPrefix
      rw [List.prefix_nil.mp isPrefix]
      exact ⟨s, rfl, start⟩
  | cons i rest inductionHypothesis =>
      intro before isPrefix
      cases before with
      | nil => exact ⟨s, rfl, start⟩
      | cons j before =>
          rcases List.cons_prefix_cons.mp isPrefix with ⟨rfl, inner⟩
          obtain ⟨middle, ran, kept⟩ :=
            pass j (List.mem_cons_self ..) s start met.1
          obtain ⟨final, finished, reached⟩ :=
            inductionHypothesis kept (met.2 middle ran)
              (fun k member => pass k (List.mem_cons_of_mem j member))
              before inner
          exact ⟨final,
            by simp only [runAll_cons, ran, Option.bind_some, finished], reached⟩

section Conditional

variable (Rel : σ → α → Prop) (abstract : α → ι → α) {condition : ι → α → Prop}
  {commands : List ι} {s : σ} {a : α}

/-- Conditional simulation rule: as `runAll_simulates`, where a step has to
succeed only when the condition holds of the abstract state. -/
theorem runAll_simulates_of_meets (start : Rel s a)
    (met : RunMeets (fun i a => some (abstract a i)) condition commands a)
    (pass : ∀ i s a, Rel s a → condition i a →
      ∃ s', step i s = some s' ∧ Rel s' (abstract a i)) :
    ∃ s', runAll step commands s = some s' ∧
      Rel s' (commands.foldl abstract a) := by
  induction commands generalizing s a with
  | nil => exact ⟨s, rfl, start⟩
  | cons i rest inductionHypothesis =>
      rcases pass i s a start met.1 with ⟨middle, ran, kept⟩
      rcases inductionHypothesis kept (met.2 _ rfl) with ⟨final, finished, reached⟩
      exact ⟨final, by simp only [runAll_cons, ran, Option.bind_some, finished],
        reached⟩

/-- If moreover a step that violates the condition faults or is not good, all
steps of the run are good exactly when the abstract run meets the condition.
Only runs that stay in a domain are considered. -/
theorem runKeeps_iff_meets_within {Good : ι → σ → σ → Prop} {domain : ι → α → Prop}
    (start : Rel s a)
    (within : RunMeets (fun i a => some (abstract a i)) domain commands a)
    (pass : ∀ i s a, Rel s a → domain i a → condition i a →
      ∃ s', step i s = some s' ∧ Good i s s' ∧ Rel s' (abstract a i))
    (fails : ∀ i s a, Rel s a → domain i a → ¬ condition i a →
      ∀ s', step i s = some s' → ¬ Good i s s') :
    RunKeeps step Good commands s ↔
      RunMeets (fun i a => some (abstract a i)) condition commands a := by
  induction commands generalizing s a with
  | nil => exact Iff.rfl
  | cons i rest inductionHypothesis =>
      rcases within with ⟨here, restWithin⟩
      constructor
      · rintro ⟨middle, ran, good, later⟩
        have meets : condition i a := by
          by_contra violated
          exact fails i s a start here violated middle ran good
        refine ⟨meets, ?_⟩
        rintro a' reached
        obtain rfl := Option.some.inj reached
        rcases pass i s a start here meets with ⟨next, ran', -, kept⟩
        obtain rfl : middle = next := Option.some.inj (ran.symm.trans ran')
        exact (inductionHypothesis kept (restWithin _ rfl)).mp later
      · rintro ⟨meets, met⟩
        rcases pass i s a start here meets with ⟨middle, ran, good, kept⟩
        exact ⟨middle, ran, good,
          (inductionHypothesis kept (restWithin _ rfl)).mpr (met _ rfl)⟩

theorem runMeets_true (step : ι → σ → Option σ) (commands : List ι) (s : σ) :
    RunMeets step (fun _ _ => True) commands s := by
  induction commands generalizing s with
  | nil => exact trivial
  | cons i rest inductionHypothesis =>
      exact ⟨trivial, fun s' _ => inductionHypothesis s'⟩

/-- The same for all runs. -/
theorem runKeeps_iff_meets {Good : ι → σ → σ → Prop} (start : Rel s a)
    (pass : ∀ i s a, Rel s a → condition i a →
      ∃ s', step i s = some s' ∧ Good i s s' ∧ Rel s' (abstract a i))
    (fails : ∀ i s a, Rel s a → ¬ condition i a →
      ∀ s', step i s = some s' → ¬ Good i s s') :
    RunKeeps step Good commands s ↔
      RunMeets (fun i a => some (abstract a i)) condition commands a :=
  runKeeps_iff_meets_within Rel abstract start (runMeets_true _ commands a)
    (fun i s a related _ => pass i s a related)
    (fun i s a related _ => fails i s a related)

/-- The same for steps that fault exactly where the condition fails. -/
theorem runAll_isSome_iff_meets (start : Rel s a)
    (pass : ∀ i s a, Rel s a → condition i a →
      ∃ s', step i s = some s' ∧ Rel s' (abstract a i))
    (fails : ∀ i s a, Rel s a → ¬ condition i a → step i s = none) :
    (∃ s', runAll step commands s = some s') ↔
      RunMeets (fun i a => some (abstract a i)) condition commands a := by
  rw [← runKeeps_true_iff]
  apply runKeeps_iff_meets Rel abstract start
  · intro i s a related meets
    rcases pass i s a related meets with ⟨s', ran, kept⟩
    exact ⟨s', ran, trivial, kept⟩
  · intro i s a related violated s' ran
    rw [fails i s a related violated] at ran
    cases ran

end Conditional

/-- The condition of a run of total steps, read at its prefixes. -/
theorem runMeets_iff_everywhere (abstract : α → ι → α) {condition : ι → α → Prop}
    {commands : List ι} {a : α} :
    RunMeets (fun i a => some (abstract a i)) condition commands a ↔
      ∀ before i, before ++ [i] <+: commands →
        condition i (before.foldl abstract a) := by
  induction commands generalizing a with
  | nil =>
      constructor
      · intro _ before i isPrefix
        have impossible := List.prefix_nil.mp isPrefix
        simp at impossible
      · exact fun _ => trivial
  | cons j rest inductionHypothesis =>
      constructor
      · rintro ⟨now, later⟩ before i isPrefix
        cases before with
        | nil =>
            rcases List.cons_prefix_cons.mp isPrefix with ⟨rfl, -⟩
            exact now
        | cons k before =>
            rcases List.cons_prefix_cons.mp isPrefix with ⟨rfl, inner⟩
            exact inductionHypothesis.mp (later _ rfl) before i inner
      · intro met
        refine ⟨met [] j (List.cons_prefix_cons.mpr ⟨rfl, List.nil_prefix⟩), ?_⟩
        rintro a' reached
        obtain rfl := Option.some.inj reached
        apply inductionHypothesis.mpr
        intro before i inner
        exact met (j :: before) i (List.cons_prefix_cons.mpr ⟨rfl, inner⟩)

/-! ## Loops that add to a list -/

section Folding

variable {β : Type} {step : σ → α → Option σ} {out : α → List β}
  {Agrees : σ → List β → Prop} {Fine : α → Prop} {most : Int}

/-- A loop that adds to a list, until something is not as it should be or the list gets
too long. -/
theorem foldlM_cases
    (steps : ∀ s ys x, Agrees s ys →
      (∃ s', step s x = some s' ∧ Agrees s' (ys ++ out x) ∧ Fine x) ∨
      (step s x = none ∧ ¬ (Fine x ∧ ((ys ++ out x).length : Int) ≤ most)))
    (xs : List α) {s : σ} {ys : List β} (agrees : Agrees s ys) :
    (∃ s', xs.foldlM step s = some s' ∧ Agrees s' (ys ++ xs.flatMap out) ∧
      ∀ x ∈ xs, Fine x) ∨
    (xs.foldlM step s = none ∧
      ¬ ((∀ x ∈ xs, Fine x) ∧ ((ys ++ xs.flatMap out).length : Int) ≤ most)) := by
  induction xs generalizing s ys with
  | nil => exact Or.inl ⟨s, rfl, by rwa [List.flatMap_nil, List.append_nil], nofun⟩
  | cons x xs inductionHypothesis =>
      have joined : ys ++ (x :: xs).flatMap out = (ys ++ out x) ++ xs.flatMap out := by
        rw [List.flatMap_cons, List.append_assoc]
      rw [List.foldlM_cons, joined, List.forall_mem_cons]
      rcases steps s ys x agrees with ⟨s', stepped, agrees', fine⟩ | ⟨failed, unfit⟩
      · rw [stepped]
        rcases inductionHypothesis agrees' with ⟨s'', ran, agrees'', allFine⟩ | ⟨failed, unfit⟩
        · exact Or.inl ⟨s'', ran, agrees'', fine, allFine⟩
        · exact Or.inr ⟨failed, fun ⟨⟨_, allFine⟩, short⟩ => unfit ⟨allFine, short⟩⟩
      · rw [failed]
        refine Or.inr ⟨rfl, fun ⟨⟨fine, _⟩, short⟩ => unfit ⟨fine, ?_⟩⟩
        rw [List.length_append] at short
        omega

end Folding

/-! ## Loops that look for an index -/

/-- Test the `count` consecutive indices from `first` on, up to the first one that
passes.  A fault in a test is a fault of the loop. -/
def search (test : Nat → Option Bool) : Nat → Nat → Option (Option Nat)
  | _, 0 => some none
  | first, count + 1 =>
      (test first).bind fun hit =>
        if hit then some (some first) else search test (first + 1) count

section Searching

variable {test : Nat → Option Bool} {first k count : Nat}

/-- Indices that do not pass are left behind. -/
theorem search_skip (missed : ∀ i, first ≤ i → i < first + k → test i = some false) :
    search test first (k + count) = search test (first + k) count := by
  induction k generalizing first with
  | zero => rw [Nat.zero_add, Nat.add_zero]
  | succ k inductionHypothesis =>
      have here := missed first (Nat.le_refl first) (by omega)
      have later := inductionHypothesis fun i (lower : first + 1 ≤ i) upper =>
        missed i (by omega) (by omega)
      rw [Nat.succ_add, search, here, Option.bind_some, if_neg Bool.false_ne_true, later,
        Nat.add_assoc, Nat.add_comm 1 k]

/-- The loop ends with the first test that is not a miss. -/
theorem search_at (inside : k < count)
    (missed : ∀ i, first ≤ i → i < first + k → test i = some false)
    (here : test (first + k) ≠ some false) :
    search test first count = (test (first + k)).map fun _ => some (first + k) := by
  obtain ⟨rest, rfl⟩ := Nat.exists_eq_add_of_lt inside
  rw [Nat.add_assoc, search_skip missed, search]
  cases tested : test (first + k) with
  | none => rfl
  | some hit =>
      cases hit with
      | false => exact absurd tested here
      | true => rfl

/-- Without a fault the loop finds what a search of the indices finds. -/
theorem search_find {p : Nat → Bool} {found : Option Nat}
    (agrees : ∀ i hit, test i = some hit → p i = hit)
    (ran : search test first count = some found) :
    (List.range' first count).find? p = found := by
  induction count generalizing first with
  | zero => exact Option.some.inj ran
  | succ count inductionHypothesis =>
      rw [search] at ran
      rcases Option.bind_eq_some_iff.mp ran with ⟨hit, tested, later⟩
      rw [List.range'_succ, List.find?_cons, agrees first hit tested]
      cases hit with
      | false => exact inductionHypothesis later
      | true => exact Option.some.inj later

end Searching

end Execution
