/-
Module: Os88.Library.Templates
Purpose: Texts with holes that a marker encloses: filling the holes one name after
  the other gives the text in which all of them are filled at once.
Trusted boundary: none
Main exports: hole, Part, Template, Template.fill, Template.source, Answer,
  Template.put, Template.fill_put, valueOf, Template.source_foldl_put,
  Template.cut_put
-/
import Os88.Library.Occurrences

namespace Templates

open Occurrences

variable {α : Type} {mark : α} {Apart : α → Prop}

/-- A name between two markers. -/
def hole (mark : α) (name : List α) : List α := mark :: (name ++ [mark])

/-- A hole and the text behind it. -/
structure Part (α : Type) where
  name : List α
  text : List α
deriving DecidableEq

/-- The markers enclose the names and lie nowhere else, and between two holes there is
an element that lies in no name. -/
def Separated (mark : α) (Apart : α → Prop) : List (Part α) → Prop
  | [] => True
  | part :: parts =>
      mark ∉ part.name ∧ mark ∉ part.text ∧
        (parts ≠ [] → ∃ ch ∈ part.text, Apart ch) ∧ Separated mark Apart parts

/-- A text with holes. -/
structure Template (mark : α) (Apart : α → Prop) where
  first : List α
  parts : List (Part α)
  first_free : mark ∉ first
  separated : Separated mark Apart parts

/-- The holes that have a value are filled with it, and the others stay. -/
def spell (mark : α) (value : List α → Option (List α)) : List (Part α) → List α
  | [] => []
  | part :: parts =>
      (value part.name).getD (hole mark part.name) ++ part.text ++ spell mark value parts

def Template.fill (value : List α → Option (List α)) (t : Template mark Apart) : List α :=
  t.first ++ spell mark value t.parts

/-- The text itself. -/
def Template.source (t : Template mark Apart) : List α := t.fill fun _ => none

/-- A name and what goes in its place. -/
structure Answer (mark : α) (Apart : α → Prop) where
  name : List α
  value : List α
  name_free : mark ∉ name
  value_free : mark ∉ value
  together : ∀ ch ∈ name, ¬ Apart ch

/-! ## Filling the holes of one name -/

section Put

variable [DecidableEq α]

/-- The parts behind a text, with one answer put in: the text grows by what is filled in
up to the next hole of another name. -/
def putParts (name value : List α) : List α → List (Part α) → List α × List (Part α)
  | text, [] => (text, [])
  | text, part :: parts =>
      if part.name = name then putParts name value (text ++ value ++ part.text) parts
      else
        let behind := putParts name value part.text parts
        (text, ⟨part.name, behind.1⟩ :: behind.2)

theorem putParts_append (name value front text : List α) (parts : List (Part α)) :
    putParts name value (front ++ text) parts =
      (front ++ (putParts name value text parts).1, (putParts name value text parts).2) := by
  induction parts generalizing text with
  | nil => rfl
  | cons part parts inductionHypothesis =>
      by_cases same : part.name = name
      · simp only [putParts, if_pos same, List.append_assoc, inductionHypothesis]
      · simp only [putParts, if_neg same]

theorem putParts_free {name value text : List α} {parts : List (Part α)} (free : mark ∉ value)
    (text_free : mark ∉ text) (separated : Separated mark Apart parts) :
    mark ∉ (putParts name value text parts).1 := by
  induction parts generalizing text with
  | nil => exact text_free
  | cons part parts inductionHypothesis =>
      rcases separated with ⟨-, behind_free, -, later⟩
      by_cases same : part.name = name
      · rw [putParts, if_pos same]
        refine inductionHypothesis ?_ later
        simp [text_free, free, behind_free]
      · rw [putParts, if_neg same]
        exact text_free

/-- The text that an answer leaves begins with the text that was there. -/
theorem prefix_putParts (name value text : List α) (parts : List (Part α)) :
    text <+: (putParts name value text parts).1 := by
  have joined := putParts_append name value text [] parts
  rw [List.append_nil] at joined
  rw [joined]
  exact List.prefix_append _ _

theorem separated_putParts {name value text : List α} {parts : List (Part α)}
    (free : mark ∉ value) (separated : Separated mark Apart parts) :
    Separated mark Apart (putParts name value text parts).2 := by
  induction parts generalizing text with
  | nil => trivial
  | cons part parts inductionHypothesis =>
      rcases separated with ⟨name_free, behind_free, apart, later⟩
      by_cases same : part.name = name
      · rw [putParts, if_pos same]
        exact inductionHypothesis later
      · rw [putParts, if_neg same]
        refine ⟨name_free, putParts_free free behind_free later, ?_, inductionHypothesis later⟩
        intro another
        have some_left : parts ≠ [] := by
          rintro rfl
          exact another rfl
        rcases apart some_left with ⟨ch, member, isApart⟩
        exact ⟨ch, (prefix_putParts name value part.text parts).subset member, isApart⟩

def Template.put (answer : Answer mark Apart) (t : Template mark Apart) :
    Template mark Apart where
  first := (putParts answer.name answer.value t.first t.parts).1
  parts := (putParts answer.name answer.value t.first t.parts).2
  first_free := putParts_free answer.value_free t.first_free t.separated
  separated := separated_putParts answer.value_free t.separated

theorem spell_putParts (name given text : List α) (value : List α → Option (List α))
    (parts : List (Part α)) :
    (putParts name given text parts).1 ++ spell mark value (putParts name given text parts).2 =
      text ++ spell mark (fun other => if other = name then some given else value other)
        parts := by
  induction parts generalizing text with
  | nil => rfl
  | cons part parts inductionHypothesis =>
      by_cases same : part.name = name
      · simp only [putParts, if_pos same, inductionHypothesis, spell, Option.getD_some,
          List.append_assoc]
      · simp only [putParts, if_neg same, spell, inductionHypothesis, List.append_assoc]

/-- Filling after an answer has been put in is filling with that answer as well. -/
theorem Template.fill_put (answer : Answer mark Apart) (t : Template mark Apart)
    (value : List α → Option (List α)) :
    (t.put answer).fill value =
      t.fill fun name => if name = answer.name then some answer.value else value name :=
  spell_putParts answer.name answer.value t.first value t.parts

/-- What the first answer for a name puts in its place. -/
def valueOf (answers : List (Answer mark Apart)) (name : List α) : Option (List α) :=
  (answers.find? fun answer => answer.name = name).map Answer.value

theorem valueOf_nil (name : List α) : valueOf ([] : List (Answer mark Apart)) name = none := rfl

theorem valueOf_cons (answer : Answer mark Apart) (answers : List (Answer mark Apart))
    (name : List α) :
    valueOf (answer :: answers) name =
      if name = answer.name then some answer.value else valueOf answers name := by
  by_cases same : answer.name = name
  · rw [valueOf, List.find?_cons_of_pos (by simpa using same), if_pos same.symm,
      Option.map_some]
  · rw [valueOf, List.find?_cons_of_neg (by simpa using same), if_neg (Ne.symm same), valueOf]

/-- Answers put in one after the other are filled in at once. -/
theorem Template.source_foldl_put (answers : List (Answer mark Apart))
    (t : Template mark Apart) :
    (answers.foldl (fun t answer => t.put answer) t).source = t.fill (valueOf answers) := by
  induction answers generalizing t with
  | nil => rfl
  | cons answer answers inductionHypothesis =>
      rw [List.foldl_cons, inductionHypothesis, Template.fill_put]
      refine congrArg (fun value => t.fill value) (funext fun name => ?_)
      rw [valueOf_cons]

end Put

/-! ## The occurrences of a hole -/

section Occurrences

variable {name s text : List α}

/-- Up to the next marker two texts are the same. -/
theorem name_of_leads {first second rest : List α} (first_free : mark ∉ first)
    (second_free : mark ∉ second) (isPrefix : first ++ [mark] <+: second ++ mark :: rest) :
    first = second := by
  induction first generalizing second with
  | nil =>
      cases second with
      | nil => rfl
      | cons ch second =>
          rw [List.nil_append, List.cons_append, List.cons_prefix_cons] at isPrefix
          exact absurd (by simp [isPrefix.1]) second_free
  | cons ch first inductionHypothesis =>
      cases second with
      | nil =>
          rw [List.nil_append, List.cons_append, List.cons_prefix_cons] at isPrefix
          exact absurd (by simp [isPrefix.1]) first_free
      | cons other second =>
          rw [List.cons_append, List.cons_append, List.cons_prefix_cons] at isPrefix
          rcases isPrefix with ⟨rfl, behind⟩
          rw [inductionHypothesis (List.not_mem_of_not_mem_cons first_free)
            (List.not_mem_of_not_mem_cons second_free) behind]

/-- A hole begins with a marker. -/
theorem skip_text (free : mark ∉ text) (name s : List α) :
    ∀ j < text.length, ¬ OccursAt (hole mark name) (text ++ s) j := by
  intro j inside occurs
  have rest : (text ++ s).drop j = text[j] :: (text ++ s).drop (j + 1) := by
    rw [List.drop_eq_getElem_cons (by rw [List.length_append]; omega),
      List.getElem_append_left inside]
  rw [OccursAt, rest, hole, List.cons_prefix_cons] at occurs
  exact free (occurs.1 ▸ List.getElem_mem inside)

/-- A marker at which no hole of the name begins is passed over with the text behind
it. -/
theorem skip_mark (free : mark ∉ text) (other : ¬ name ++ [mark] <+: text ++ s) :
    ∀ j < (mark :: text).length, ¬ OccursAt (hole mark name) (mark :: text ++ s) j := by
  intro j inside occurs
  cases j with
  | zero =>
      rw [OccursAt, List.drop_zero, hole, List.cons_append, List.cons_prefix_cons] at occurs
      exact other occurs.2
  | succ j =>
      rw [OccursAt, List.cons_append, List.drop_succ_cons] at occurs
      exact skip_text free name s j (Nat.lt_of_succ_lt_succ inside) occurs

end Occurrences

section Cut

theorem intercalate_append_head (value front piece : List α) (pieces : List (List α)) :
    value.intercalate ((front ++ piece) :: pieces) =
      front ++ value.intercalate (piece :: pieces) := by
  cases pieces with
  | nil => rw [List.intercalate_singleton, List.intercalate_singleton]
  | cons next pieces =>
      rw [List.intercalate_cons_cons, List.intercalate_cons_cons, List.append_assoc,
        List.append_assoc, List.append_assoc]

variable [DecidableEq α]

/-- The occurrences of a hole are the holes of that name. -/
theorem cut_putParts {name value text : List α} {parts : List (Part α)}
    (name_free : mark ∉ name) (together : ∀ ch ∈ name, ¬ Apart ch) (text_free : mark ∉ text)
    (separated : Separated mark Apart parts) :
    ∃ pieces, Cut (hole mark name) (text ++ spell mark (fun _ => none) parts) pieces ∧
      value.intercalate pieces =
        (putParts name value text parts).1 ++
          spell mark (fun _ => none) (putParts name value text parts).2 := by
  induction parts generalizing text with
  | nil =>
      refine ⟨[text], ?_, ?_⟩
      · rw [spell, List.append_nil]
        refine .last fun j occurs => ?_
        have inside := occurs.inside (by simp [hole])
        refine skip_text text_free name [] j ?_ (by rwa [List.append_nil])
        simp only [hole, List.length_cons, List.length_append] at inside
        omega
      · rw [List.intercalate_singleton, putParts, spell, List.append_nil]
  | cons part parts inductionHypothesis =>
      rcases separated with ⟨part_free, behind_free, apart, later⟩
      rcases inductionHypothesis behind_free later with ⟨pieces, cut, joined⟩
      rw [spell, Option.getD_none, List.append_assoc]
      by_cases same : part.name = name
      · refine ⟨(text ++ []) :: pieces, ?_, ?_⟩
        · rw [same]
          exact cut.at_front.append_left (skip_text text_free name _)
        · rw [List.append_nil, List.intercalate_cons_of_ne_nil cut.ne_nil, joined, putParts,
            if_pos same, putParts_append]
          simp only [List.append_assoc]
      · obtain ⟨piece, pieces, rfl⟩ := List.exists_cons_of_ne_nil cut.ne_nil
        have closing :
            ¬ name ++ [mark] <+: [] ++ (part.text ++ spell mark (fun _ => none) parts) := by
          rw [List.nil_append]
          intro isPrefix
          cases parts with
          | nil =>
              rw [spell, List.append_nil] at isPrefix
              exact behind_free (isPrefix.subset (by simp))
          | cons next parts =>
              have spelled : spell mark (fun _ => none) (next :: parts) =
                  mark :: (next.name ++ [mark] ++ next.text ++
                    spell mark (fun _ => none) parts) := by
                simp [spell, hole]
              rw [spelled] at isPrefix
              have equal := name_of_leads name_free behind_free isPrefix
              rcases apart (by simp) with ⟨ch, member, isApart⟩
              exact together ch (equal ▸ member) isApart
        have opening : ¬ name ++ [mark] <+:
            part.name ++ ([mark] ++ (part.text ++ spell mark (fun _ => none) parts)) :=
          fun isPrefix => same (name_of_leads name_free part_free isPrefix).symm
        have passed := ((cut.append_left (skip_mark (by simp) closing)).append_left
          (skip_mark part_free opening)).append_left (skip_text text_free name _)
        have front : hole mark part.name ++
              (part.text ++ spell mark (fun _ => none) parts) =
            mark :: part.name ++ ([mark] ++ (part.text ++ spell mark (fun _ => none) parts)) := by
          simp [hole]
        refine ⟨_, front ▸ passed, ?_⟩
        rw [intercalate_append_head, intercalate_append_head, intercalate_append_head, joined,
          putParts, if_neg same]
        simp [spell, hole]

/-- Putting in an answer is cutting the text at its holes and joining the pieces by the
answer. -/
theorem Template.cut_put (answer : Answer mark Apart) (t : Template mark Apart) :
    ∃ pieces, Cut (hole mark answer.name) t.source pieces ∧
      answer.value.intercalate pieces = (t.put answer).source :=
  cut_putParts answer.name_free answer.together t.first_free t.separated

end Cut

end Templates
