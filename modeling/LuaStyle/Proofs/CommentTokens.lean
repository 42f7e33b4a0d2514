/-
This file proves that the comments of a tree are the comments among the tokens it is read from.

Every comment token that a tree is read from is an item of a block or of a table, and the tree lists
its comments in the order in which the tokens come. So a tree that is read from tokens without
comments has no comments, and putting comments into it gives it exactly these.
-/

import LuaStyle.Proofs.Uncommented

namespace LuaStyle

namespace Token

/-- The comments that the comment tokens stand for. -/
def comments (tokens : List Token) : List Comment :=
  (tokens.filter (·.kind == .comment)).map Comment.ofToken

variable {token : Token} {kind : Kind}

theorem comments_append (tokens more : List Token) :
    comments (tokens ++ more) = comments tokens ++ comments more := by
  rw [comments, List.filter_append, List.map_append, comments, comments]

theorem comments_cons (is : token.kind = kind) (isCode : kind ≠ .comment) (tokens : List Token) :
    comments (token :: tokens) = comments tokens := by
  rw [comments, List.filter_cons_of_neg, comments]
  rw [is, beq_iff_eq]
  exact isCode

theorem comments_comment (is : token.kind = .comment) (tokens : List Token) :
    comments (token :: tokens) = Comment.ofToken token :: comments tokens := by
  rw [comments, List.filter_cons_of_pos (by rw [is]; rfl), List.map_cons, comments]

theorem comments_of_code_eq {tokens : List Token} (isCode : code tokens = tokens) :
    comments tokens = [] := by
  rw [comments, ← isCode, code, List.filter_filter, List.filter_eq_nil_iff.2, List.map_nil]
  intro token _
  cases same : token.kind == .comment <;> simp [bne, same]

end Token

/-- The comments among the nodes are those among the tokens. -/
def Node.CommentsFrom (nodes : List Node) (tokens : List Token) : Prop :=
  Node.commentsAmong nodes = Token.comments tokens

namespace Node.CommentsFrom

variable {nodes more : List Node} {tokens further : List Token} {token : Token} {kind : Token.Kind}

theorem nil : Node.CommentsFrom [] [] := rfl

theorem append (first : Node.CommentsFrom nodes tokens) (second : Node.CommentsFrom more further) :
    Node.CommentsFrom (nodes ++ more) (tokens ++ further) := by
  rw [Node.CommentsFrom, Node.commentsAmong_append, Token.comments_append, first, second]

/-- A token that is no comment may stand in front. -/
theorem skip (holds : Node.CommentsFrom nodes tokens) (is : token.kind = kind)
    (isCode : kind ≠ .comment) : Node.CommentsFrom nodes (token :: tokens) := by
  rw [Node.CommentsFrom, Token.comments_cons is isCode]
  exact holds

/-- Tokens that are no comments may stand behind. -/
theorem concat (holds : Node.CommentsFrom nodes tokens) (none : Token.comments further = []) :
    Node.CommentsFrom nodes (tokens ++ further) := by
  rw [Node.CommentsFrom, Token.comments_append, none, List.append_nil]
  exact holds

/-- A node that is no comment may stand in front. -/
theorem cons {node : Node} (none : node.comments = []) (holds : Node.CommentsFrom nodes tokens) :
    Node.CommentsFrom (node :: nodes) tokens := by
  rw [Node.CommentsFrom, Node.commentsAmong_cons, none, List.nil_append]
  exact holds

end Node.CommentsFrom

theorem Token.comments_single {token : Token} {kind : Token.Kind} (is : token.kind = kind)
    (isCode : kind ≠ .comment) : Token.comments [token] = [] :=
  Token.comments_cons is isCode []

theorem Token.comments_eq_nil_of_semicolons {marks : List Token}
    (semicolons : ∀ mark ∈ marks, mark.kind = .symbol .semicolon) : comments marks = [] := by
  refine comments_of_code_eq (List.filter_eq_self.2 fun mark member => ?_)
  rw [semicolons mark member]
  rfl

section

variable {strict : Bool}

theorem Statement.ReadsBody.comments_eq_nil {tokens : List Token}
    (reads : Statement.ReadsBody strict [] tokens) : Token.comments tokens = [] := by
  induction tokens with
  | nil => rfl
  | cons token tokens inductionHypothesis =>
    cases reads with
    | semicolon kind _ inner =>
      rw [Token.comments_cons kind (by rintro ⟨⟩)]
      exact inductionHypothesis inner

theorem Expression.ReadsArguments.commentsFrom {arguments : List Expression} {tokens : List Token}
    (reads : Expression.ReadsArguments strict arguments tokens)
    (all : Expression.ReadsAll strict arguments tokens →
      Node.CommentsFrom (Expression.nodesOfAll arguments) tokens) :
    Node.CommentsFrom (Expression.nodesOfAll arguments) tokens := by
  cases reads with
  | nil => rfl
  | some reads => exact all reads

theorem Statement.ReadsFunction.commentsFrom {parameters : List Parameter} {body : List Statement}
    {tokens : List Token} (reads : Statement.ReadsFunction strict parameters body tokens)
    (inner : ∀ {tokens}, Statement.ReadsBody strict body tokens →
      Node.CommentsFrom (Statement.nodesOfAll body) tokens) :
    Node.CommentsFrom (Statement.nodesOfAll body) tokens := by
  cases reads with
  | intro opens parametersRead closes bodyReads ends =>
    have start := (Node.CommentsFrom.nil.concat
      (Token.comments_of_code_eq parametersRead.code_eq)).skip opens (by rintro ⟨⟩)
    exact (start.append ((inner bodyReads).skip closes (by rintro ⟨⟩))).concat
      (Token.comments_single ends (by rintro ⟨⟩))

mutual

theorem Expression.Reads.commentsFrom : ∀ (expression : Expression) {tokens : List Token},
    expression.Reads strict tokens ∨ expression.ReadsCallee strict tokens →
      Node.CommentsFrom expression.nodes tokens
  | .binary operator left right _, _, reads => by
    cases Expression.reads_of_or reads rfl with
    | binary leftReads mark rightReads =>
      exact .cons rfl ((Expression.Reads.commentsFrom left (.inl leftReads)).append
        ((Expression.Reads.commentsFrom right (.inl rightReads)).skip mark
          operator.token_ne_comment))
  | .unary operator argument _, _, reads => by
    cases Expression.reads_of_or reads rfl with
    | unary mark argumentReads =>
      exact .cons rfl ((Expression.Reads.commentsFrom argument (.inl argumentReads)).skip mark
        operator.token_ne_comment)
  | .call base arguments _, _, reads => by
    cases Expression.reads_of_or reads rfl with
    | call callee opens argumentsRead closes =>
      exact .cons rfl (((Expression.Reads.commentsFrom base (.inr callee)).append
        ((argumentsRead.commentsFrom (Expression.ReadsAll.commentsFrom arguments)).skip opens
          nofun)).concat (Token.comments_single closes nofun))
  | .stringCall base _ _, _, reads => by
    cases Expression.reads_of_or reads rfl with
    | stringCall callee isString _ =>
      exact .cons rfl ((Expression.Reads.commentsFrom base (.inr callee)).concat
        (Token.comments_single rfl (Token.ne_comment_of_isString isString)))
  | .tableCall base fields _ _, _, reads => by
    cases Expression.reads_of_or reads rfl with
    | tableCall callee opens fieldsRead closes =>
      exact .cons rfl (((Expression.Reads.commentsFrom base (.inr callee)).append
        ((Field.ReadsAll.commentsFrom fields fieldsRead).skip opens nofun)).concat
          (Token.comments_single closes nofun))
  | .function _ _ body _, _, reads => by
    cases Expression.reads_of_or reads rfl with
    | function kind functionReads =>
      exact .cons rfl ((functionReads.commentsFrom (Statement.ReadsBody.commentsFrom body)).skip
        kind nofun)
  | .group inner _, _, reads => by
    cases Expression.reads_of_or reads rfl with
    | group opens innerReads closes =>
      exact .cons rfl (((Expression.Reads.commentsFrom inner (.inl innerReads)).skip opens
        nofun).concat (Token.comments_single closes nofun))
  | .name _, _, reads => by
    cases Expression.reads_of_or reads rfl with
    | name nameReads => exact .cons rfl (Node.CommentsFrom.nil.skip nameReads.1 nofun)
  | .index base key _, _, reads => by
    cases Expression.reads_of_or reads rfl with
    | index _ baseReads opens keyReads closes =>
      exact .cons rfl (((Expression.Reads.commentsFrom base (.inl baseReads)).append
        ((Expression.Reads.commentsFrom key (.inl keyReads)).skip opens nofun)).concat
          (Token.comments_single closes nofun))
  | .member base selector selected span, tokens, reads => by
    have selects : ∀ {before mark token}, tokens = before ++ [mark, token] →
        base.Reads strict before → mark.kind ≠ .comment → selected.Reads token →
        Node.CommentsFrom (Expression.member base selector selected span).nodes tokens := by
      rintro before mark token rfl baseReads isCode nameReads
      refine .cons rfl ((Expression.Reads.commentsFrom base (.inl baseReads)).concat ?_)
      rw [Token.comments_cons rfl isCode, Token.comments_single nameReads.1 nofun]
    rcases reads with reads | callee
    · cases reads with
      | member _ baseReads mark nameReads => exact selects rfl baseReads (mark ▸ nofun) nameReads
    · cases callee with
      | value _ reads =>
        cases reads with
        | member _ baseReads mark nameReads => exact selects rfl baseReads (mark ▸ nofun) nameReads
      | method _ baseReads mark nameReads => exact selects rfl baseReads (mark ▸ nofun) nameReads
  | .literal _, _, reads => by
    cases Expression.reads_of_or reads rfl with
    | literal literalReads => exact .cons rfl (Token.comments_of_code_eq literalReads.code_eq).symm
  | .table fields _, _, reads => by
    cases Expression.reads_of_or reads rfl with
    | table opens fieldsRead closes =>
      exact .cons rfl (((Field.ReadsAll.commentsFrom fields fieldsRead).skip opens nofun).concat
        (Token.comments_single closes nofun))

theorem Expression.ReadsAll.commentsFrom : ∀ (expressions : List Expression) {tokens : List Token},
    Expression.ReadsAll strict expressions tokens →
      Node.CommentsFrom (Expression.nodesOfAll expressions) tokens
  | [], _, reads => by cases reads
  | expression :: rest, _, reads => by
    cases reads with
    | single reads =>
      rw [Expression.nodesOfAll, Expression.nodesOfAll, List.append_nil]
      exact Expression.Reads.commentsFrom expression (.inl reads)
    | cons reads mark others =>
      exact (Expression.Reads.commentsFrom expression (.inl reads)).append
        ((Expression.ReadsAll.commentsFrom rest others).skip mark nofun)

theorem Expression.ReadsStep.commentsFrom : ∀ (step : Option Expression) {tokens : List Token},
    Expression.ReadsStep strict step tokens →
      Node.CommentsFrom (Expression.nodesOfOptional step) tokens
  | none, _, reads => by
    cases reads
    rfl
  | some step, _, reads => by
    cases reads with
    | some mark reads => exact (Expression.Reads.commentsFrom step (.inl reads)).skip mark nofun

theorem Field.Reads.commentsFrom : ∀ (field : Field) {tokens : List Token},
    field.Reads strict tokens → Node.CommentsFrom field.nodes tokens
  | .keyed key value _, _, reads => by
    cases reads with
    | keyed opens keyReads closes mark valueReads =>
      exact .cons rfl (((Expression.Reads.commentsFrom key (.inl keyReads)).skip opens
        nofun).append (((Expression.Reads.commentsFrom value (.inl valueReads)).skip mark
          nofun).skip closes nofun))
  | .named _ value _, _, reads => by
    cases reads with
    | named nameReads mark valueReads =>
      exact .cons rfl (((Expression.Reads.commentsFrom value (.inl valueReads)).skip mark
        nofun).skip nameReads.1 nofun)
  | .positional value, _, reads => by
    cases reads with
    | positional reads => exact .cons rfl (Expression.Reads.commentsFrom value (.inl reads))
  | .comment _, _, reads => by cases reads

theorem Field.ReadsAll.commentsFrom : ∀ (fields : List Field) {tokens : List Token},
    Field.ReadsAll strict fields tokens → Node.CommentsFrom (Field.nodesOfAll fields) tokens
  | [], _, reads => by
    cases reads
    rfl
  | field :: rest, _, reads => by
    cases reads with
    | comment kind others =>
      rw [Node.CommentsFrom, Token.comments_comment kind,
        ← Field.ReadsAll.commentsFrom rest others]
      rfl
    | last reads _ others =>
      exact (Field.Reads.commentsFrom field reads).append (Field.ReadsAll.commentsFrom rest others)
    | @cons _ _ mark _ _ reads kind others =>
      have isCode : mark.kind ≠ .comment := by
        rcases kind with kind | kind <;> rw [kind] <;> exact nofun
      exact (Field.Reads.commentsFrom field reads).append
        ((Field.ReadsAll.commentsFrom rest others).skip rfl isCode)

theorem Clause.ReadsGuarded.commentsFrom : ∀ (clause : Clause) {word : ClauseWord}
    {tokens : List Token}, Clause.ReadsGuarded strict word clause tokens →
      Node.CommentsFrom clause.nodes tokens
  | .guarded _ condition body _, word, _, reads => by
    cases reads with
    | intro kind conditionReads header bodyReads =>
      exact .cons rfl (((Expression.Reads.commentsFrom condition (.inl conditionReads)).skip kind
        (ClauseWord.keyword_ne_comment _)).append
        ((Statement.ReadsBody.commentsFrom body bodyReads).skip
          header nofun))
  | .otherwise .., _, _, reads => by cases reads

theorem Clause.ReadsFurther.commentsFrom : ∀ (clauses : List Clause) {tokens : List Token},
    Clause.ReadsFurther strict clauses tokens →
      Node.CommentsFrom (Clause.nodesOfAll clauses) tokens
  | [], _, reads => by
    cases reads
    rfl
  | .guarded word condition body span :: rest, _, reads => by
    cases reads with
    | cons clauseReads others =>
      exact (Clause.ReadsGuarded.commentsFrom (.guarded word condition body span)
        clauseReads).append (Clause.ReadsFurther.commentsFrom rest others)
  | .otherwise body span :: rest, _, reads => by
    cases reads with
    | otherwise kind bodyReads =>
      rw [Clause.nodesOfAll, Clause.nodesOfAll, List.append_nil]
      exact .cons rfl ((Statement.ReadsBody.commentsFrom body bodyReads).skip kind nofun)
    | cons clauseReads => cases clauseReads

theorem Statement.Reads.commentsFrom : ∀ (statement : Statement) {tokens : List Token},
    statement.Reads strict tokens → Node.CommentsFrom statement.nodes tokens
  | .assignment targets values _, _, reads => by
    have targetsFrom := @Expression.ReadsAll.commentsFrom targets
    cases reads with
    | assignment _ targetsRead mark valuesRead =>
      exact .cons rfl ((targetsFrom targetsRead).append
        ((Expression.ReadsAll.commentsFrom values valuesRead).skip mark nofun))
  | .breakLoop _, _, reads => by
    cases reads with
    | breakLoop kind => exact .cons rfl (Node.CommentsFrom.nil.skip kind nofun)
  | .call expression _, _, reads => by
    cases reads with
    | call _ reads => exact .cons rfl (Expression.Reads.commentsFrom expression (.inl reads))
  | .comment _, _, reads => by
    cases reads with
    | comment kind =>
      rw [Node.CommentsFrom, Token.comments_comment kind]
      rfl
  | .doBlock body _, _, reads => by
    cases reads with
    | doBlock opens bodyReads closes =>
      exact .cons rfl (((Statement.ReadsBody.commentsFrom body bodyReads).skip opens nofun).concat
        (Token.comments_single closes nofun))
  | .genericFor _ iterators body _, _, reads => by
    cases reads with
    | genericFor opens namesRead word iteratorsRead header bodyReads closes =>
      have start := (Node.CommentsFrom.nil.concat
        (Token.comments_of_code_eq (namesRead.code_eq nofun))).skip opens nofun
      exact .cons rfl (((start.append ((Expression.ReadsAll.commentsFrom iterators
        iteratorsRead).skip word nofun)).append ((Statement.ReadsBody.commentsFrom body
          bodyReads).skip header nofun)).concat (Token.comments_single closes nofun))
  | .numericFor _ first last step body _, _, reads => by
    cases reads with
    | numericFor opens counterReads equal firstReads comma lastReads stepReads header bodyReads
        closes =>
      have start := (((Expression.Reads.commentsFrom first (.inl firstReads)).skip equal
        nofun).skip counterReads.1 nofun).skip opens nofun
      have headerFrom := (start.append ((Expression.Reads.commentsFrom last (.inl lastReads)).skip
        comma nofun)).append (Expression.ReadsStep.commentsFrom step stepReads)
      exact .cons rfl ((headerFrom.append ((Statement.ReadsBody.commentsFrom body bodyReads).skip
        header nofun)).concat (Token.comments_single closes nofun))
  | .function _ _ body _, _, reads => by
    cases reads with
    | function opens nameReads functionReads =>
      have start := (Node.CommentsFrom.nil.concat
        (Token.comments_of_code_eq nameReads.code_eq)).skip opens nofun
      exact .cons rfl (start.append
        (functionReads.commentsFrom (Statement.ReadsBody.commentsFrom body)))
    | localFunction opens word nameReads functionReads =>
      exact .cons rfl ((((functionReads.commentsFrom
        (Statement.ReadsBody.commentsFrom body)).skip nameReads.1 nofun).skip word nofun).skip
          opens nofun)
  | .goto _ _, _, reads => by
    cases reads with
    | goto opens targetReads =>
      exact .cons rfl ((Node.CommentsFrom.nil.skip targetReads.1 nofun).skip opens nofun)
  | .ifElse [] _, _, reads => by cases reads
  | .ifElse (clause :: rest) _, _, reads => by
    cases reads with
    | ifElse clauseReads furtherRead closes =>
      exact .cons rfl (((Clause.ReadsGuarded.commentsFrom clause clauseReads).append
        (Clause.ReadsFurther.commentsFrom rest furtherRead)).concat
          (Token.comments_single closes nofun))
  | .label _ _, _, reads => by
    cases reads with
    | label opens nameReads closes =>
      exact .cons rfl (((Node.CommentsFrom.nil.skip closes nofun).skip nameReads.1 nofun).skip
        opens nofun)
  | .localVariables _ values _, _, reads => by
    cases reads with
    | localNames opens namesRead =>
      exact .cons rfl ((Node.CommentsFrom.nil.concat
        (Token.comments_of_code_eq (namesRead.code_eq nofun))).skip opens nofun)
    | localVariables opens namesRead mark valuesRead =>
      have start := (Node.CommentsFrom.nil.concat
        (Token.comments_of_code_eq (namesRead.code_eq nofun))).skip opens nofun
      exact .cons rfl (start.append
        ((Expression.ReadsAll.commentsFrom values valuesRead).skip mark nofun))
  | .repeatUntil body condition _, _, reads => by
    cases reads with
    | repeatUntil opens bodyReads word conditionReads =>
      exact .cons rfl (((Statement.ReadsBody.commentsFrom body bodyReads).skip opens nofun).append
        ((Expression.Reads.commentsFrom condition (.inl conditionReads)).skip word nofun))
  | .returnValues values _, _, reads => by
    cases reads with
    | returnValues opens valuesRead ends =>
      refine .cons rfl (((valuesRead.commentsFrom
        (Expression.ReadsAll.commentsFrom values)).skip opens nofun).concat ?_)
      rcases ends with rfl | ⟨-, mark, kind, rfl⟩
      · rfl
      · exact Token.comments_single kind nofun
  | .whileLoop condition body _, _, reads => by
    cases reads with
    | whileLoop opens conditionReads header bodyReads closes =>
      exact .cons rfl ((((Expression.Reads.commentsFrom condition (.inl conditionReads)).skip
        opens nofun).append ((Statement.ReadsBody.commentsFrom body bodyReads).skip header
          nofun)).concat (Token.comments_single closes nofun))

theorem Statement.ReadsBody.commentsFrom : ∀ (body : List Statement) {tokens : List Token},
    Statement.ReadsBody strict body tokens →
      Node.CommentsFrom (Statement.nodesOfAll body) tokens
  | [], _, reads => reads.comments_eq_nil.symm
  | statement :: rest, _, reads => by
    obtain ⟨marks, segment, more, rfl, semicolons, first, -, -, others⟩ := reads.uncons
    have start : Node.CommentsFrom [] marks := (Token.comments_eq_nil_of_semicolons semicolons).symm
    exact (start.append (Statement.Reads.commentsFrom statement first)).append
      (Statement.ReadsBody.commentsFrom rest others)

end

end

end LuaStyle
