/-
Module: Os88.Library.Waiting
Purpose: Programs that wait for a device and may still be waiting: a polling loop, and
  rules for what holds when such a program ends and what holds while it waits.
Trusted boundary: none
Main exports: poll, Ends, ends_pure, ends_bind, ends_map, ends_weaken, ends_ok,
  exists_bound, poll_ends, poll_finishes, settles
-/
import Mathlib.Logic.Function.Iterate

namespace Waiting

variable {σ α β : Type}

/-- Read until a read succeeds; after `fuel` reads the loop is given up where it is. -/
def poll (read : σ → Bool × σ) : Nat → σ → Except σ σ
  | 0, s => .error s
  | fuel + 1, s =>
      let (done, s) := read s
      if done then .ok s else poll read fuel s

/-- The result of a program that ends satisfies `Post`, the state of one that is still
waiting `Still`. -/
def Ends (Still : σ → Prop) (Post : α → Prop) : Except σ α → Prop
  | .ok result => Post result
  | .error s => Still s

variable {Still : σ → Prop} {Post : α → Prop}

theorem ends_bind {Post' : β → Prop} {x : Except σ α} {f : α → Except σ β}
    (first : Ends Still Post x) (next : ∀ result, Post result → Ends Still Post' (f result)) :
    Ends Still Post' (x >>= f) := by
  cases x with
  | ok result => exact next result first
  | error s => exact first

theorem ends_map {Post' : β → Prop} {x : Except σ α} {f : α → β} (ends : Ends Still Post x)
    (next : ∀ result, Post result → Post' (f result)) : Ends Still Post' (x.map f) := by
  cases x with
  | ok result => exact next result ends
  | error s => exact ends

theorem ends_weaken {Still' : σ → Prop} {Post' : α → Prop} {x : Except σ α}
    (ends : Ends Still Post x) (still : ∀ s, Still s → Still' s)
    (post : ∀ result, Post result → Post' result) : Ends Still' Post' x := by
  cases x with
  | ok result => exact post result ends
  | error s => exact still s ends

theorem ends_ok {x : Except σ α} {result : α} (ends : Ends Still Post x)
    (ran : x = .ok result) : Post result := by
  rw [ran] at ends
  exact ends

/-- Finitely many delays have a bound. -/
theorem exists_bound (delay : Nat → Nat) (first count : Nat) :
    ∃ enough, ∀ n < count, delay (first + n) < enough := by
  induction count with
  | zero => exact ⟨0, fun n impossible => absurd impossible (Nat.not_lt_zero n)⟩
  | succ count inductionHypothesis =>
      rcases inductionHypothesis with ⟨enough, bounded⟩
      refine ⟨enough + delay (first + count) + 1, ?_⟩
      intro n small
      by_cases last : n = count
      · subst last
        omega
      · have earlier := bounded n (by omega)
        omega

section Polling

variable (read : σ → Bool × σ)

/-- The loop keeps what every read keeps, and ends behind a read that succeeded. -/
theorem poll_ends {Inv : σ → Prop} (kept : ∀ s, Inv s → Inv (read s).2) {s : σ} (start : Inv s)
    (fuel : Nat) :
    Ends Inv (fun s' => ∃ before, Inv before ∧ read before = (true, s'))
      (poll read fuel s) := by
  induction fuel generalizing s with
  | zero => exact start
  | succ fuel inductionHypothesis =>
      have later := kept s start
      rw [poll]
      rcases once : read s with ⟨done, s'⟩
      rw [once] at later
      cases done with
      | true => exact ⟨s, start, once⟩
      | false => exact inductionHypothesis later

/-- A loop whose reads come closer to a success ends behind one. -/
theorem poll_finishes (Inv : σ → Prop) (distance : σ → Nat)
    (kept : ∀ s, Inv s → (read s).1 = false →
      Inv (read s).2 ∧ distance (read s).2 < distance s)
    {s : σ} (start : Inv s) {fuel : Nat} (patient : distance s < fuel) :
    ∃ last, Inv last ∧ (read last).1 = true ∧ poll read fuel s = .ok (read last).2 := by
  induction fuel generalizing s with
  | zero => exact absurd patient (Nat.not_lt_zero _)
  | succ fuel inductionHypothesis =>
      have later := kept s start
      rw [poll]
      rcases once : read s with ⟨done, s'⟩
      rw [once] at later
      cases done with
      | true => exact ⟨s, start, by rw [once], by rw [once]; rfl⟩
      | false =>
          rcases later rfl with ⟨inv, closer⟩
          exact inductionHypothesis inv (Nat.lt_of_lt_of_le closer (Nat.le_of_lt_succ patient))

end Polling

/-- A system whose steps come closer to a set of states that they do not leave again is in
it as soon as there were as many steps as it was away. -/
theorem settles {step : σ → σ} {Inv Settled : σ → Prop} (distance : σ → Nat)
    (kept : ∀ s, Inv s → Inv (step s)) (stays : ∀ s, Inv s → Settled s → Settled (step s))
    (closer : ∀ s, Inv s → ¬ Settled s → Settled (step s) ∨ distance (step s) < distance s)
    {s : σ} (start : Inv s) {n : Nat} (enough : distance s < n) :
    Inv (step^[n] s) ∧ Settled (step^[n] s) := by
  have after : ∀ n s, Inv s → Settled s → Inv (step^[n] s) ∧ Settled (step^[n] s) := by
    intro n
    induction n with
    | zero => exact fun s inv settled => ⟨inv, settled⟩
    | succ n inductionHypothesis =>
        intro s inv settled
        exact inductionHypothesis (step s) (kept s inv) (stays s inv settled)
  induction n generalizing s with
  | zero => exact absurd enough (Nat.not_lt_zero _)
  | succ n inductionHypothesis =>
      by_cases settled : Settled s
      · exact after (n + 1) s start settled
      · rcases closer s start settled with there | nearer
        · exact after n (step s) (kept s start) there
        · exact inductionHypothesis (kept s start)
            (Nat.lt_of_lt_of_le nearer (Nat.le_of_lt_succ enough))

end Waiting
