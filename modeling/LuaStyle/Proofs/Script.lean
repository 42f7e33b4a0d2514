/-
This file writes the words of a tree with everything between parentheses set apart.

A script is what a tree says, word by word, where expressions keep their limits: an expression is
marked with its form and with the parentheses around it, the stretch between the parentheses of a
call is marked as such, and everything else is words. Commas and semicolons are left out, since the
grammar lets some of them come and go. So the parentheses of groups are the only part of a script
that can be taken away without a trace in the rest, and what becomes of a tree when one pair of them
is deleted can be said of its script, whether or not what is left is a tree.
-/

import LuaStyle.Proofs.Accounting
import LuaStyle.Proofs.Surface

namespace LuaStyle

/-! ### Scripts -/

/-- The words of a part of a tree. -/
inductive Script where
  /-- Nothing more. -/
  | done
  /-- A word. -/
  | word (word : Token.Word) (rest : Script)
  /-- What stands between parentheses that belong to a call or to the parameters of a function. -/
  | enclosed (inside rest : Script)
  /-- An expression of the form in as many pairs of parentheses as there are groups, of which each
  stands where its span says. -/
  | expression (groups : List Span) (form : Expression.Form) (inside rest : Script)

namespace Script

/-- The first script, and the second behind it. -/
def append : Script → Script → Script
  | done, more => more
  | word only rest, more => word only (append rest more)
  | enclosed inside rest, more => enclosed inside (append rest more)
  | expression groups form inside rest, more => expression groups form inside (append rest more)

instance : Append Script := ⟨append⟩

/-- The script of an expression in one more pair of parentheses. -/
def grouped (span : Span) : Script → Script
  | expression groups form inside rest => expression (span :: groups) form inside rest
  | script => script

/-- The expressions of a script, each as its form and the script of what is in it. -/
def parts : Script → List (Expression.Form × Script)
  | done => []
  | word _ rest => rest.parts
  | enclosed inside rest => inside.parts ++ rest.parts
  | expression _ form inside rest => (form, inside) :: (inside.parts ++ rest.parts)

/-- The script with other groups around its expressions. -/
def mapGroups (change : List Span → List Span) : Script → Script
  | done => done
  | word only rest => word only (rest.mapGroups change)
  | enclosed inside rest => enclosed (inside.mapGroups change) (rest.mapGroups change)
  | expression groups form inside rest =>
    expression (change groups) form (inside.mapGroups change) (rest.mapGroups change)

/-- The script without groups. -/
abbrev ungrouped (script : Script) : Script :=
  script.mapGroups fun _ => []

/-- The script with its groups, but without the places of these. -/
abbrev unplaced (script : Script) : Script :=
  script.mapGroups (List.map fun _ => default)

section

variable (first second : Script) (only : Token.Word) (inside rest : Script) (groups : List Span)
  (form : Expression.Form) (change : List Span → List Span)

@[simp] theorem done_append : done ++ rest = rest := rfl

@[simp] theorem word_append : word only first ++ second = word only (first ++ second) := rfl

@[simp] theorem enclosed_append :
    enclosed inside first ++ second = enclosed inside (first ++ second) := rfl

@[simp] theorem expression_append :
    expression groups form inside first ++ second =
      expression groups form inside (first ++ second) := rfl

@[simp] theorem append_done : first ++ done = first := by
  induction first with
  | done => rfl
  | word only rest inductionHypothesis => rw [word_append, inductionHypothesis]
  | enclosed inside rest _ inductionHypothesis => rw [enclosed_append, inductionHypothesis]
  | expression groups form inside rest _ inductionHypothesis =>
    rw [expression_append, inductionHypothesis]

@[simp] theorem parts_done : done.parts = [] := rfl

@[simp] theorem parts_word : (word only rest).parts = rest.parts := rfl

@[simp] theorem parts_enclosed : (enclosed inside rest).parts = inside.parts ++ rest.parts := rfl

@[simp] theorem parts_expression :
    (expression groups form inside rest).parts = (form, inside) :: (inside.parts ++ rest.parts) :=
  rfl

@[simp] theorem parts_append : (first ++ second).parts = first.parts ++ second.parts := by
  induction first with
  | done => rfl
  | word only rest inductionHypothesis => exact inductionHypothesis
  | enclosed inside rest _ inductionHypothesis =>
    rw [enclosed_append, parts_enclosed, parts_enclosed, inductionHypothesis, List.append_assoc]
  | expression groups form inside rest _ inductionHypothesis =>
    rw [expression_append, parts_expression, parts_expression, inductionHypothesis,
      List.cons_append, List.append_assoc]

@[simp] theorem mapGroups_done : done.mapGroups change = done := rfl

@[simp] theorem mapGroups_word :
    (word only rest).mapGroups change = word only (rest.mapGroups change) := rfl

@[simp] theorem mapGroups_enclosed :
    (enclosed inside rest).mapGroups change =
      enclosed (inside.mapGroups change) (rest.mapGroups change) := rfl

@[simp] theorem mapGroups_expression :
    (expression groups form inside rest).mapGroups change =
      expression (change groups) form (inside.mapGroups change) (rest.mapGroups change) := rfl

@[simp] theorem mapGroups_append :
    (first ++ second).mapGroups change = first.mapGroups change ++ second.mapGroups change := by
  induction first with
  | done => rfl
  | word only rest inductionHypothesis => simp [inductionHypothesis]
  | enclosed inside rest _ inductionHypothesis => simp [inductionHypothesis]
  | expression groups form inside rest _ inductionHypothesis => simp [inductionHypothesis]

/-- Changing groups changes what is in the parts, and nothing else about them. -/
theorem parts_mapGroups (script : Script) :
    (script.mapGroups change).parts = script.parts.map (Prod.map id (mapGroups change)) := by
  induction script with
  | done => rfl
  | word only rest inductionHypothesis => exact inductionHypothesis
  | enclosed inside rest insideHypothesis restHypothesis =>
    rw [mapGroups_enclosed, parts_enclosed, parts_enclosed, insideHypothesis, restHypothesis,
      List.map_append]
  | expression groups form inside rest insideHypothesis restHypothesis =>
    rw [mapGroups_expression, parts_expression, parts_expression, insideHypothesis, restHypothesis,
      List.map_cons, List.map_append]
    rfl

@[simp] theorem parts_grouped (span : Span) (script : Script) :
    (script.grouped span).parts = script.parts := by
  cases script <;> rfl

@[simp] theorem ungrouped_grouped (span : Span) (script : Script) :
    (script.grouped span).ungrouped = script.ungrouped := by
  cases script <;> rfl

end

/-! ### Taking a group away -/

/-- The second script is the first one without one group, which stands where the span says. -/
inductive Frees (span : Span) : Script → Script → Prop
  | here {groups form inside rest} :
    Frees span (expression (span :: groups) form inside rest) (expression groups form inside rest)
  | behindWord {only rest freed} : Frees span rest freed →
    Frees span (word only rest) (word only freed)
  | enclosed {inside rest freed} : Frees span inside freed →
    Frees span (enclosed inside rest) (enclosed freed rest)
  | behindEnclosed {inside rest freed} : Frees span rest freed →
    Frees span (enclosed inside rest) (enclosed inside freed)
  | inExpression {groups form inside rest freed} : Frees span inside freed →
    Frees span (expression groups form inside rest) (expression groups form freed rest)
  | behindExpression {groups form inside rest freed} : Frees span rest freed →
    Frees span (expression groups form inside rest) (expression groups form inside freed)

namespace Frees

variable {span : Span} {script freed : Script}

theorem ungrouped_eq (frees : Frees span script freed) : freed.ungrouped = script.ungrouped := by
  induction frees with
  | here => rfl
  | behindWord _ inductionHypothesis | enclosed _ inductionHypothesis
  | behindEnclosed _ inductionHypothesis | inExpression _ inductionHypothesis
  | behindExpression _ inductionHypothesis => simp [inductionHypothesis]

/-- A group in a part of a script can be taken away within the script. -/
theorem exists_of_mem_parts {form : Expression.Form} {inside freedInside : Script}
    (member : (form, inside) ∈ script.parts) (frees : Frees span inside freedInside) :
    ∃ freed, Frees span script freed ∧ (form, freedInside) ∈ freed.parts := by
  induction script with
  | done => cases member
  | word only rest inductionHypothesis =>
    obtain ⟨freed, restFrees, isPart⟩ := inductionHypothesis member
    exact ⟨_, .behindWord restFrees, isPart⟩
  | enclosed within rest withinHypothesis restHypothesis =>
    rcases List.mem_append.1 member with here | behind
    · obtain ⟨freed, withinFrees, isPart⟩ := withinHypothesis here
      exact ⟨_, .enclosed withinFrees, List.mem_append_left _ isPart⟩
    · obtain ⟨freed, restFrees, isPart⟩ := restHypothesis behind
      exact ⟨_, .behindEnclosed restFrees, List.mem_append_right _ isPart⟩
  | expression groups outer within rest withinHypothesis restHypothesis =>
    rcases List.mem_cons.1 member with same | deeper
    · cases same
      exact ⟨_, .inExpression frees, List.mem_cons_self⟩
    · rcases List.mem_append.1 deeper with here | behind
      · obtain ⟨freed, withinFrees, isPart⟩ := withinHypothesis here
        exact ⟨_, .inExpression withinFrees,
          List.mem_cons_of_mem _ (List.mem_append_left _ isPart)⟩
      · obtain ⟨freed, restFrees, isPart⟩ := restHypothesis behind
        exact ⟨_, .behindExpression restFrees,
          List.mem_cons_of_mem _ (List.mem_append_right _ isPart)⟩

end Frees

end Script

end LuaStyle
