/-
This file proves that empty lines stand around function declarations, and nowhere else.

Comments directly above a declaration belong to it, so the empty line stands above the first of
them. Between two neighbours it is asked whether the statements that follow are such comments and
then the declaration; if the upper neighbour is a comment it belongs to the same run, so the run has
its first comment behind an empty line only where the upper neighbour is none.
-/

import LuaStyle.Layout.Printer
import LuaStyle.Proofs.Steps
import LuaStyle.Proofs.Writing

namespace LuaStyle

namespace Statement

/-! ### Runs of comments -/

/-- From `start` on there are comments, perhaps none, up to the function declaration at `stop`, and
the comment run starts there. -/
structure LeadsTo (body : List Statement) (start stop : Nat) : Prop where
  /-- The run does not start behind the declaration. -/
  order : start ≤ stop
  /-- The run is followed by a function declaration. -/
  declares : body[stop]?.any isFunctionDeclaration
  /-- Up to there, all are comments. -/
  comments : ∀ index, start ≤ index → index < stop → body[index]?.any isComment
  /-- There is no comment in front of the run. -/
  first : ∀ index, index + 1 = start → body[index]?.any isComment = false

variable {statement : Statement} {body : List Statement} {start stop index : Nat}

theorem isFunctionDeclaration_of_isComment (comment : statement.isComment) :
    statement.isFunctionDeclaration = false := by
  cases statement <;> first | rfl | cases comment

/-- A list leads to a declaration if there is one that only comments stand before. -/
theorem leadToDeclaration_iff : leadToDeclaration body ↔ ∃ stop : Nat,
    body[stop]?.any isFunctionDeclaration ∧ ∀ index < stop, body[index]?.any isComment := by
  induction body with
  | nil =>
    refine iff_of_false Bool.false_ne_true ?_
    rintro ⟨stop, declares, -⟩
    cases declares
  | cons statement rest inductionHypothesis =>
    rw [leadToDeclaration]
    by_cases comment : statement.isComment
    · rw [if_pos comment, inductionHypothesis]
      constructor
      · rintro ⟨stop, declares, comments⟩
        refine ⟨stop + 1, declares, fun index before => ?_⟩
        cases index with
        | zero => exact comment
        | succ index => exact comments index (Nat.lt_of_succ_lt_succ before)
      · rintro ⟨stop, declares, comments⟩
        cases stop with
        | zero => cases (isFunctionDeclaration_of_isComment comment).symm.trans declares
        | succ stop =>
          exact ⟨stop, declares, fun index before => comments _ (Nat.succ_lt_succ before)⟩
    · rw [if_neg comment]
      constructor
      · exact fun declares => ⟨0, declares, fun index before => absurd before (Nat.not_lt_zero _)⟩
      · rintro ⟨stop, declares, comments⟩
        cases stop with
        | zero => exact declares
        | succ stop => exact absurd (comments 0 (Nat.succ_pos _)) comment

/-- Behind a statement that is no comment, a list that leads to a declaration is the whole run. -/
theorem exists_leadsTo_iff (within : index < body.length) :
    (∃ stop, LeadsTo body (index + 1) stop) ↔
      leadToDeclaration (body.drop (index + 1)) ∧ body[index].isComment = false := by
  have front : body[index]?.any isComment = body[index].isComment := by
    rw [List.getElem?_eq_getElem within, Option.any_some]
  rw [leadToDeclaration_iff, ← front]
  constructor
  · rintro ⟨stop, leads⟩
    obtain ⟨count, rfl⟩ := Nat.exists_eq_add_of_le leads.order
    refine ⟨⟨count, ?_, fun place before => ?_⟩, leads.first index rfl⟩
    · rw [List.getElem?_drop]
      exact leads.declares
    · rw [List.getElem?_drop]
      exact leads.comments _ (Nat.le_add_right ..) (Nat.add_lt_add_left before _)
  · rintro ⟨⟨count, declares, comments⟩, first⟩
    rw [List.getElem?_drop] at declares
    refine ⟨index + 1 + count, Nat.le_add_right .., declares, fun place behind before => ?_,
      fun place same => Nat.succ.inj same ▸ first⟩
    obtain ⟨further, rfl⟩ := Nat.exists_eq_add_of_le behind
    have comment := comments further (Nat.lt_of_add_lt_add_left before)
    rwa [List.getElem?_drop] at comment

/-! ### Empty lines -/

/-- Whether an empty line stands behind each of the statements but the last. -/
def blanks : List Statement → List Bool
  | statement :: next :: rest =>
    blankLineBetween statement (next :: rest) :: blanks (next :: rest)
  | _ => []

theorem length_blanks (body : List Statement) : (blanks body).length = body.length - 1 := by
  fun_induction blanks body with
  | case1 statement next rest inductionHypothesis =>
    rw [List.length_cons, inductionHypothesis]
    rfl
  | case2 body short =>
    match body with
    | [] | [_] => rfl
    | _ :: _ :: _ => exact absurd rfl (short _ _ _)

theorem getElem?_blanks (neighbour : index + 1 < body.length) :
    (blanks body)[index]? = some (blankLineBetween body[index] (body.drop (index + 1))) := by
  induction body generalizing index with
  | nil => exact absurd neighbour (Nat.not_lt_zero _)
  | cons statement rest inductionHypothesis =>
    cases rest with
    | nil => exact absurd neighbour (Nat.not_lt_of_le (Nat.succ_le_succ (Nat.zero_le _)))
    | cons next rest =>
      cases index with
      | zero => rfl
      | succ index => exact inductionHypothesis (Nat.lt_of_succ_lt_succ neighbour)

/-- An empty line stands between a declaration and what follows it, and in front of a declaration
and the comments directly above it. -/
theorem blankLineBetween_iff (within : index < body.length) :
    blankLineBetween body[index] (body.drop (index + 1)) ↔
      body[index].isFunctionDeclaration ∨ ∃ stop, LeadsTo body (index + 1) stop := by
  rw [exists_leadsTo_iff within, blankLineBetween, Bool.or_eq_true, Bool.and_eq_true,
    Bool.not_eq_true', leadToDeclaration]
  by_cases comment : body[index].isComment
  · rw [if_pos comment, comment]
    refine or_congr_right (iff_of_false ?_ fun both => Bool.false_ne_true both.2.symm)
    rintro ⟨leads, none⟩
    cases leads.symm.trans none
  · rw [if_neg comment, Bool.eq_false_iff.2 comment]
    cases declares : body[index].isFunctionDeclaration with
    | true => exact iff_of_true (.inl rfl) (.inl rfl)
    | false => exact or_congr_right (and_congr_right fun _ => iff_of_true rfl rfl)

theorem blanks_eq_true_iff (neighbour : index + 1 < body.length) :
    (blanks body)[index]? = some true ↔
      body[index]?.any isFunctionDeclaration ∨ ∃ stop, LeadsTo body (index + 1) stop := by
  have within := Nat.lt_of_succ_lt neighbour
  rw [getElem?_blanks neighbour, Option.some_inj, blankLineBetween_iff within,
    List.getElem?_eq_getElem within, Option.any_some]

theorem blanks_eq_false (neighbour : index + 1 < body.length)
    (undeclared : body[index]?.any isFunctionDeclaration = false)
    (unled : ¬∃ stop, LeadsTo body (index + 1) stop) : (blanks body)[index]? = some false := by
  have asked := blanks_eq_true_iff neighbour
  rw [getElem?_blanks neighbour] at asked ⊢
  refine congrArg some (Bool.eq_false_iff.2 fun isBlank => ?_)
  rcases asked.1 (congrArg some isBlank) with declares | leads
  · cases undeclared.symm.trans declares
  · exact unled leads

/-- No empty line stands behind a comment of a run that a declaration follows. -/
theorem LeadsTo.blanks_eq_false (leads : LeadsTo body start stop) (behind : start ≤ index)
    (before : index < stop) : (blanks body)[index]? = some false := by
  have comment := leads.comments index behind before
  obtain ⟨last, isLast, -⟩ := (Option.any_eq_true _ _).1 leads.declares
  have neighbour := Nat.lt_of_le_of_lt before (List.getElem?_eq_some_iff.1 isLast).1
  obtain ⟨statement, here, isComment⟩ := (Option.any_eq_true _ _).1 comment
  refine Statement.blanks_eq_false neighbour ?_ ?_
  · rw [here, Option.any_some]
    exact isFunctionDeclaration_of_isComment isComment
  · rintro ⟨next, again⟩
    cases (again.first index rfl).symm.trans comment

/-- Without declarations there are no empty lines. -/
theorem blanks_eq_false_of_undeclared
    (none : ∀ statement ∈ body, statement.isFunctionDeclaration = false) :
    ∀ isBlank ∈ blanks body, isBlank = false := by
  intro isBlank member
  obtain ⟨index, within, rfl⟩ := List.getElem_of_mem member
  have undeclared : ∀ place : Nat, body[place]?.any isFunctionDeclaration = false := by
    intro place
    cases found : body[place]? with
    | none => rfl
    | some statement => exact none statement (List.mem_of_getElem? found)
  have neighbour : index + 1 < body.length := by
    rw [length_blanks] at within
    omega
  have unled : ¬∃ stop, LeadsTo body (index + 1) stop := by
    rintro ⟨stop, leads⟩
    cases (undeclared stop).symm.trans leads.declares
  have blank := blanks_eq_false neighbour (undeclared index) unled
  rw [List.getElem?_eq_getElem within] at blank
  exact Option.some.inj blank

/-! ### Texts below each other -/

/-- Documents below each other, with an empty line behind those for which it is asked, and with a
semicolon in front of a text that would be read as the arguments of a call. -/
def rows (config : Config) (depth : Nat) (docs : List Doc) (blanks : List Bool) : List Char :=
  (docs.head?.map fun doc => doc.written config).getD [] ++
    (blanks.zip docs.tail).flatMap fun (isBlank, doc) =>
      config.lineEnding.text ++ (if isBlank then config.lineEnding.text else []) ++
        (List.replicate depth config.indentation.text).flatten ++
          (if (doc.written config).head? = some '(' then [';'] else []) ++ doc.written config

/-- No line break is written with a parenthesis at its front, so the documents that the semicolon
goes in front of are those whose text starts with one. -/
theorem head?_written_iff (config : Config) (doc : Doc) :
    (doc.written config).head? = some '(' ↔ doc.head? = some (.char '(') := by
  cases doc with
  | nil => exact iff_of_false (Option.some_ne_none _).symm (Option.some_ne_none _).symm
  | cons piece rest =>
    cases piece with
    | char c =>
      rw [Doc.written_char, List.head?_cons, List.head?_cons, Option.some_inj, Option.some_inj,
        Piece.char.injEq]
    | lineBreak depth =>
      have ends : ∀ (ending : LineEnding) (text : List Char),
          (ending.text ++ text).head? ≠ some '(' := by
        intro ending text
        cases ending <;> exact mt Option.some.inj (by decide)
      rw [Doc.written_cons_lineBreak, List.head?_cons, Option.some_inj]
      exact iff_of_false (ends _ _) Piece.noConfusion

theorem written_guarded (config : Config) (doc : Doc) : (guarded doc).written config =
    (if (doc.written config).head? = some '(' then [';'] else []) ++ doc.written config := by
  rw [guarded]
  by_cases parenthesis : doc.head? = some (.char '(')
  · rw [if_pos parenthesis, if_pos ((head?_written_iff config doc).2 parenthesis)]
    rfl
  · rw [if_neg parenthesis, if_neg (mt (head?_written_iff config doc).1 parenthesis)]
    rfl

theorem length_docs {config : Config} {depth : Nat} {docs : List Doc}
    (laid : Statement.docs config depth body = .ok docs) : docs.length = body.length := by
  induction body generalizing docs with
  | nil =>
    rw [Statement.docs] at laid
    cases laid
    rfl
  | cons statement rest inductionHypothesis =>
    rw [Statement.docs] at laid
    obtain ⟨first, -, laid⟩ := bind_eq_ok.1 laid
    obtain ⟨others, othersLaid, laid⟩ := bind_eq_ok.1 laid
    cases laid
    rw [List.length_cons, List.length_cons, inductionHypothesis othersLaid]

/-- If empty lines are wanted at all, they stand where they are asked for. -/
theorem written_stack {config : Config} (extra : config.extraNewlines) (depth : Nat)
    {docs : List Doc} (length : docs.length = body.length) :
    (stack config depth body docs).written config = rows config depth docs (blanks body) := by
  induction body generalizing docs with
  | nil =>
    cases List.length_eq_zero_iff.1 length
    rfl
  | cons statement rest inductionHypothesis =>
    obtain ⟨doc, docs, rfl⟩ := List.exists_cons_of_length_eq_add_one length
    replace length := Nat.succ.inj length
    cases rest with
    | nil =>
      cases List.length_eq_zero_iff.1 length
      exact (List.append_nil _).symm
    | cons next rest =>
      obtain ⟨second, docs, rfl⟩ := List.exists_cons_of_length_eq_add_one length
      have further : (stack config depth (next :: rest) (guarded second :: docs)).written config =
          rows config depth (guarded second :: docs) (blanks (next :: rest)) :=
        inductionHypothesis length
      rw [stack, extra, Bool.true_and, Doc.written_append, Doc.written_append,
        Doc.written_cons_lineBreak, further, rows, rows, blanks, List.head?_cons, Option.map_some,
        Option.getD_some, written_guarded]
      cases blankLineBetween statement (next :: rest) <;>
        simp [Doc.written, Doc.render, List.append_assoc]

end Statement

/-- Statements stand below each other with an empty line behind each function declaration and in
front of each one together with the comments directly above it, and with no other empty line. -/
theorem blank_lines_around_declarations {config : Config} (extra : config.extraNewlines)
    (depth : Nat) {body : List Statement} {docs : List Doc}
    (laid : Statement.docs config depth body = .ok docs) :
    docs.length = body.length ∧ ∃ blanks : List Bool, blanks.length = body.length - 1 ∧
      (Statement.stack config depth body docs).written config =
        Statement.rows config depth docs blanks ∧
      (∀ index, index + 1 < body.length → (blanks[index]? = some true ↔
        body[index]?.any Statement.isFunctionDeclaration ∨
          ∃ stop, Statement.LeadsTo body (index + 1) stop)) ∧
      (∀ start stop, Statement.LeadsTo body start stop →
        ∀ index, start ≤ index → index < stop → blanks[index]? = some false) ∧
      ((∀ statement ∈ body, statement.isFunctionDeclaration = false) →
        ∀ isBlank ∈ blanks, isBlank = false) := by
  have length := Statement.length_docs laid
  exact ⟨length, Statement.blanks body, Statement.length_blanks body,
    Statement.written_stack extra depth length, fun _ => Statement.blanks_eq_true_iff,
    fun _ _ leads _ => leads.blanks_eq_false, Statement.blanks_eq_false_of_undeclared⟩

/-- Above a declaration with a comment in front of it, the empty line stands above the comment. -/
theorem blank_lines_around_declarations_of_comment :
    ∃ docs, Statement.docs {} 0 [.breakLoop default, .comment default,
        .function ⟨some default, true⟩ [] [] default, .breakLoop default] = .ok docs ∧
      ∃ blanks : List Bool, blanks.length = 3 ∧
        (Statement.stack {} 0 [.breakLoop default, .comment default,
          .function ⟨some default, true⟩ [] [] default, .breakLoop default] docs).written {} =
            Statement.rows {} 0 docs blanks ∧
        blanks[0]? = some true ∧ blanks[1]? = some false ∧ blanks[2]? = some true := by
  have leads : Statement.LeadsTo [.breakLoop default, .comment default,
      .function ⟨some default, true⟩ [] [] default, .breakLoop default] 1 2 := by
    refine ⟨by decide, rfl, fun index behind before => ?_, fun index same => ?_⟩
    · cases Nat.le_antisymm (Nat.le_of_lt_succ before) behind
      rfl
    · cases same
      rfl
  have laid : Statement.docs {} 0 [.breakLoop default, .comment default,
      .function ⟨some default, true⟩ [] [] default, .breakLoop default] = .ok _ := rfl
  obtain ⟨-, blanks, length, text, blank, inside, -⟩ :=
    blank_lines_around_declarations rfl 0 laid
  exact ⟨_, laid, blanks, length, text, (blank 0 (by decide)).2 (.inr ⟨2, leads⟩),
    inside 1 2 leads 1 (by decide) (by decide), (blank 2 (by decide)).2 (.inl rfl)⟩

end LuaStyle
