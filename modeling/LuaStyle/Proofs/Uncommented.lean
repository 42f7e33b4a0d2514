/-
This file proves that dropping the comments of a tree and of the tokens it is read from go together.

A tree that has its comments in place is read from the tokens of a source, comments included. What
the parser sees are the tokens that are left when comments are taken out, and from these the tree
without its comments is read, with the same spans. A strict reading stays strict: a semicolon stands
directly in front of the parenthesis that it guards, so no comment comes between them.
-/

import LuaStyle.Proofs.Extents

namespace LuaStyle

/-! ### Tokens that are not comments -/

namespace Token

variable {tokens more : List Token} {token : Token} {kind : Kind} {start stop : Nat}

/-- The tokens that are not comments. -/
def code (tokens : List Token) : List Token :=
  tokens.filter (·.kind != .comment)

theorem code_nil : code [] = [] := rfl

theorem code_append (tokens more : List Token) : code (tokens ++ more) = code tokens ++ code more :=
  List.filter_append ..

/-- A token that is no comment stays. -/
theorem code_cons (is : token.kind = kind) (isCode : kind ≠ .comment) (tokens : List Token) :
    code (token :: tokens) = token :: code tokens := by
  refine List.filter_cons_of_pos ?_
  rw [is, bne_iff_ne]
  exact isCode

/-- A comment is left out. -/
theorem code_comment (is : token.kind = .comment) (tokens : List Token) :
    code (token :: tokens) = code tokens := by
  refine List.filter_cons_of_neg ?_
  rw [is]
  exact nofun

/-- Without comments, tokens start where they did, since a comment is not the first of them. -/
theorem StartsAt.code (starts : StartsAt tokens start) : StartsAt (code tokens) start := by
  obtain ⟨first, more, rfl, isCode, same⟩ := starts
  rw [code_cons rfl isCode]
  exact ⟨first, _, rfl, isCode, same⟩

theorem StopsAt.code (stops : StopsAt tokens stop) : StopsAt (code tokens) stop := by
  obtain ⟨before, last, rfl, isCode, same⟩ := stops
  rw [code_append, code_cons rfl isCode]
  exact ⟨_, last, rfl, isCode, same⟩

theorem Spans.code {span : Span} (spans : Spans tokens span) : Spans (code tokens) span :=
  ⟨spans.starts.code, spans.stops.code⟩

/-- Leaving out the comments inside does not change how far tokens reach. -/
theorem Spans.extent_code {span : Span} (spans : Spans tokens span) :
    extent (Token.code tokens) = extent tokens := by
  rw [spans.extent_eq, spans.code.extent_eq]

theorem startParenthesis_code (is : startParenthesis tokens) : startParenthesis (code tokens) := by
  cases tokens with
  | nil => exact is
  | cons token more =>
    have kind : token.kind = .symbol .leftParen := by simpa [startParenthesis] using is
    rw [code_cons kind nofun]
    exact is

end Token

/-- The recasting that keeps spans and raw texts, and the comments that are to be kept. -/
def Recasting.keeping (keep : Comment → Bool) : Recasting where
  span := fun span => span
  comment := fun comment => if keep comment then some comment else none
  raw := Literal.raw

/-- The recasting that drops all comments and nothing else. -/
abbrev Recasting.uncommented : Recasting := .keeping fun _ => false

/-! ### Leaves -/

section

variable (keep : Comment → Bool)

/-- An expression that loses comments stands where it did. -/
theorem Expression.span_keeping (expression : Expression) :
    (expression.recast (.keeping keep)).span = expression.span := by
  cases expression <;> rfl

theorem Name.map_recast_keeping (names : List Name) :
    names.map (Name.recast (.keeping keep)) = names :=
  List.map_id' names

theorem Parameter.recast_keeping (parameter : Parameter) :
    parameter.recast (.keeping keep) = parameter := by
  cases parameter <;> rfl

theorem Parameter.map_recast_keeping (parameters : List Parameter) :
    parameters.map (Parameter.recast (.keeping keep)) = parameters := by
  rw [show Parameter.recast (.keeping keep) = id from funext (Parameter.recast_keeping keep),
    List.map_id]

/-- The name of a function has no comments to lose. -/
theorem FunctionName.recast_keeping (name : FunctionName) :
    name.recast (.keeping keep) = name := by
  obtain ⟨path, method, span⟩ := name
  simp only [FunctionName.recast, Name.map_recast_keeping, FunctionName.mk.injEq, true_and]
  exact ⟨by cases method <;> rfl, rfl⟩

/-- The head of a function has no comments to lose. -/
theorem FunctionHead.recast_keeping (head : FunctionHead) :
    head.recast (.keeping keep) = head := by
  obtain ⟨_ | name, isLocal⟩ := head
  · rfl
  · exact congrArg (fun name => FunctionHead.mk (some name) isLocal)
      (FunctionName.recast_keeping keep name)

end

/-- A literal is no comment. -/
theorem Literal.Reads.code_eq {constant : Literal} {token : Token} (reads : constant.Reads token) :
    Token.code [token] = [token] := by
  cases reads with
  | nil kind | true kind | false kind | vararg kind | number kind =>
    exact Token.code_cons kind nofun []
  | string kind => exact Token.code_cons rfl (Token.ne_comment_of_isString kind) []

theorem Name.ReadsAll.code_eq {separator : Token.Kind} {names : List Name} {tokens : List Token}
    (reads : Name.ReadsAll separator names tokens) (isCode : separator ≠ .comment) :
    Token.code tokens = tokens := by
  induction reads with
  | single reads => exact Token.code_cons reads.1 nofun []
  | cons reads kind _ inductionHypothesis =>
    rw [Token.code_cons reads.1 nofun, Token.code_cons kind isCode, inductionHypothesis]

/-- Among the tokens of the name of a function there is no comment. -/
theorem FunctionName.Reads.code_eq {name : FunctionName} {tokens : List Token}
    (reads : name.Reads tokens) : Token.code tokens = tokens := by
  cases reads with
  | plain path => exact path.code_eq nofun
  | method path kind reads =>
    rw [Token.code_append, path.code_eq nofun, Token.code_cons kind nofun,
      Token.code_cons reads.1 nofun, Token.code_nil]

/-- Among the tokens of parameters there is no comment. -/
theorem Parameter.ReadsAll.code_eq {parameters : List Parameter} {tokens : List Token}
    (reads : Parameter.ReadsAll parameters tokens) : Token.code tokens = tokens := by
  induction reads with
  | nil => rfl
  | vararg kind => exact Token.code_cons kind nofun []
  | single reads => exact Token.code_cons reads.1 nofun []
  | cons reads kind _ _ inductionHypothesis =>
    rw [Token.code_cons reads.1 nofun, Token.code_cons kind nofun, inductionHypothesis]

/-! ### Lists, given their members -/

section

variable {strict : Bool}

/-- Without its comments, the statement is read from the tokens that are not comments. -/
def Statement.Uncomments (strict : Bool) (statement : Statement) : Prop :=
  ∀ tokens, statement.Reads strict tokens → Token.Ordered tokens → statement.isComment = false →
    ∃ image, statement.recast .uncommented = [image] ∧ image.isReturn = statement.isReturn ∧
      image.Reads strict (Token.code tokens)

/-- A block of comments alone loses all of its statements. -/
theorem Statement.recastAll_eq_nil_of_all_isComment {body : List Statement}
    (comments : body.all isComment) : recastAll .uncommented body = [] := by
  induction body with
  | nil => rfl
  | cons first rest inductionHypothesis =>
    rw [List.all_cons, Bool.and_eq_true] at comments
    cases first with
    | comment => exact inductionHypothesis comments.2
    | _ => cases comments.1

theorem Field.recastAll_eq_nil_of_all_isComment {fields : List Field}
    (comments : fields.all isComment) : recastAll .uncommented fields = [] := by
  induction fields with
  | nil => rfl
  | cons first rest inductionHypothesis =>
    rw [List.all_cons, Bool.and_eq_true] at comments
    cases first with
    | comment => exact inductionHypothesis comments.2
    | _ => cases comments.1

/-- Fields that are comments alone are read from comments. -/
theorem Field.ReadsAll.code_eq_nil : ∀ {fields : List Field} {tokens : List Token},
    Field.ReadsAll strict fields tokens → fields.all isComment → Token.code tokens = []
  | [], _, reads, _ => by
    cases reads
    rfl
  | field :: rest, _, reads, comments => by
    obtain ⟨first, others⟩ := Bool.and_eq_true_iff.1 (List.all_cons ▸ comments)
    cases reads with
    | comment kind reads =>
      rw [Token.code_comment kind]
      exact reads.code_eq_nil others
    | last reads | cons reads => cases reads <;> cases first

/-- A comment among statements is read from one token. -/
theorem Statement.Reads.eq_comment {statement : Statement} {tokens : List Token}
    (reads : statement.Reads strict tokens) (isComment : statement.isComment) :
    ∃ token, tokens = [token] ∧ token.kind = .comment ∧
      statement = .comment (Comment.ofToken token) := by
  cases reads with
  | comment kind => exact ⟨_, rfl, kind, rfl⟩
  | _ => cases isComment

/-- Where the tokens of a block do not start with a parenthesis, they do not when comments are taken
out of a strict reading. -/
theorem Statement.ReadsBody.startParenthesis_code (isStrict : strict) : ∀ (body : List Statement)
    {tokens : List Token}, Statement.ReadsBody strict body tokens → Token.Ordered tokens →
      Token.startParenthesis tokens = false → Token.startParenthesis (Token.code tokens) = false
  | [], tokens, reads, _, _ => by
    cases reads with
    | nil => rfl
    | semicolon kind =>
      rw [Token.code_cons kind nofun]
      simp [Token.startParenthesis, kind]
  | statement :: rest, tokens, reads, ordered, noCall => by
    cases reads with
    | semicolon kind =>
      rw [Token.code_cons kind nofun]
      simp [Token.startParenthesis, kind]
    | cons reads _ apart others =>
      cases isComment : statement.isComment with
      | true =>
        obtain ⟨token, rfl, kind, -⟩ := reads.eq_comment isComment
        rw [List.singleton_append, Token.code_comment kind]
        exact others.startParenthesis_code isStrict rest ordered.right (apart isStrict)
      | false =>
        obtain ⟨first, more, rfl, isCode, -⟩ := (reads.spans ordered.left isComment).starts
        rw [List.cons_append, Token.code_cons rfl isCode]
        exact noCall

/-- Without its comments, a block is read from the tokens that are not comments, if its statements
are. -/
theorem Statement.ReadsBody.uncommented_of {body : List Statement} {tokens : List Token}
    (each : ∀ statement ∈ body, statement.Uncomments strict)
    (reads : Statement.ReadsBody strict body tokens) (ordered : Token.Ordered tokens) :
    Statement.ReadsBody strict (recastAll .uncommented body) (Token.code tokens) := by
  -- The induction is on the tokens, since semicolons take away tokens and no statement.
  induction hypothesisSize : tokens.length using Nat.strongRecOn generalizing tokens body with
  | ind size inductionHypothesis =>
  subst hypothesisSize
  cases reads with
  | nil => exact .nil
  | @semicolon _ mark tokens kind starts inner =>
    rw [Token.code_cons kind nofun]
    exact .semicolon kind (fun isStrict => Token.startParenthesis_code (starts isStrict))
      (inductionHypothesis _ (Nat.lt_succ_self _) each inner ordered.tail rfl)
  | @cons statement rest segment more reads last apart others =>
    obtain ⟨firstUncomments, otherUncomment⟩ := List.forall_mem_cons.1 each
    have shorter : more.length < (segment ++ more).length := by
      have nonempty : segment ≠ [] := by
        cases isComment : statement.isComment with
        | true =>
          obtain ⟨token, rfl, -⟩ := reads.eq_comment isComment
          exact nofun
        | false => exact (reads.spans ordered.left isComment).ne_nil
      rw [List.length_append]
      exact Nat.lt_add_of_pos_left (List.length_pos_iff.2 nonempty)
    have othersRead :=
      inductionHypothesis _ shorter otherUncomment others ordered.right rfl
    rw [recastAll, Token.code_append]
    cases isComment : statement.isComment with
    | true =>
      obtain ⟨token, rfl, kind, rfl⟩ := reads.eq_comment isComment
      rw [Token.code_comment kind]
      exact othersRead
    | false =>
      obtain ⟨image, same, isReturn, imageReads⟩ := firstUncomments _ reads ordered.left isComment
      rw [same, List.singleton_append]
      refine .cons imageReads (fun returns => ?_) (fun isStrict => ?_) othersRead
      · rw [Statement.recastAll_eq_nil_of_all_isComment (last (isReturn ▸ returns))]
        rfl
      · exact others.startParenthesis_code isStrict rest ordered.right (apart isStrict)

/-- Without its comments, the field is read from the tokens that are not comments. -/
def Field.Uncomments (strict : Bool) (field : Field) : Prop :=
  ∀ tokens, field.Reads strict tokens → Token.Ordered tokens →
    ∃ image, field.recast .uncommented = [image] ∧ image.Reads strict (Token.code tokens)

/-- Without its comments, a table is read from the tokens that are not comments, if its fields
are. -/
theorem Field.ReadsAll.uncommented_of : ∀ {fields : List Field} {tokens : List Token},
    (∀ field ∈ fields, field.Uncomments strict) → Field.ReadsAll strict fields tokens →
      Token.Ordered tokens →
      Field.ReadsAll strict (recastAll .uncommented fields) (Token.code tokens)
  | [], _, _, reads, _ => by
    cases reads
    exact .nil
  | field :: rest, _, each, reads, ordered => by
    obtain ⟨firstUncomments, otherUncomment⟩ := List.forall_mem_cons.1 each
    cases reads with
    | comment kind others =>
      rw [Token.code_comment kind]
      have othersRead := Field.ReadsAll.uncommented_of otherUncomment others ordered.tail
      exact othersRead
    | last reads comments others =>
      obtain ⟨image, same, imageReads⟩ := firstUncomments _ reads ordered.left
      rw [recastAll, same, Field.recastAll_eq_nil_of_all_isComment comments, Token.code_append,
        others.code_eq_nil comments]
      exact .last imageReads rfl .nil
    | @cons _ _ mark _ _ reads kind others =>
      obtain ⟨image, same, imageReads⟩ := firstUncomments _ reads ordered.left
      have isCode : mark.kind ≠ .comment := by
        rcases kind with kind | kind <;> rw [kind] <;> exact nofun
      rw [recastAll, same, Token.code_append, Token.code_cons rfl isCode]
      exact .cons imageReads kind
        (Field.ReadsAll.uncommented_of otherUncomment others ordered.right.tail)

/-! ### Trees -/

/-- What is called is read without its comments, if the expression it is would be. -/
theorem Expression.ReadsCallee.uncommented_of {base : Expression} {tokens : List Token}
    (plain : base.isMethod = false)
    (uncomments : base.Reads strict tokens →
      (base.recast .uncommented).Reads strict (Token.code tokens))
    (reads : base.ReadsCallee strict tokens) :
    (base.recast .uncommented).ReadsCallee strict (Token.code tokens) := by
  cases reads with
  | value isPrefix reads =>
    refine .value ?_ (uncomments reads)
    rwa [Expression.isPrefix_recast]
  | method => cases plain

theorem Expression.ReadsArguments.uncommented_of {expressions : List Expression}
    {tokens : List Token}
    (uncomments : Expression.ReadsAll strict expressions tokens →
      Expression.ReadsAll strict (Expression.recastAll .uncommented expressions)
        (Token.code tokens))
    (reads : Expression.ReadsArguments strict expressions tokens) :
    Expression.ReadsArguments strict (Expression.recastAll .uncommented expressions)
      (Token.code tokens) := by
  cases reads with
  | nil => exact .nil
  | some reads => exact .some (uncomments reads)

/-- A function is read without its comments if each statement of its block is. -/
theorem Statement.ReadsFunction.uncommented_of {parameters : List Parameter}
    {body : List Statement} {tokens : List Token}
    (each : ∀ statement ∈ body, statement.Uncomments strict)
    (reads : Statement.ReadsFunction strict parameters body tokens)
    (ordered : Token.Ordered tokens) :
    Statement.ReadsFunction strict (parameters.map (Parameter.recast .uncommented))
      (recastAll .uncommented body) (Token.code tokens) := by
  cases reads with
  | intro opens parametersRead closes bodyReads ends =>
    have bodyRead := Statement.ReadsBody.uncommented_of each bodyReads ordered.left.right.tail
    rw [Parameter.map_recast_keeping, Token.code_append, Token.code_append,
      Token.code_cons opens nofun, Token.code_cons closes nofun, Token.code_cons ends nofun,
      parametersRead.code_eq]
    exact .intro opens parametersRead closes bodyRead ends

theorem ClauseWord.keyword_ne_comment (word : ClauseWord) :
    Token.Kind.keyword word.keyword ≠ .comment := by
  cases word <;> exact nofun

/-- A clause is read without its comments if its condition and each statement of its block are. -/
theorem Clause.ReadsGuarded.uncommented_of {word read : ClauseWord} {condition : Expression}
    {body : List Statement} {span : Span} {tokens : List Token}
    (conditionUncomments : ∀ {tokens}, Token.Ordered tokens → condition.Reads strict tokens →
      (condition.recast .uncommented).Reads strict (Token.code tokens))
    (each : ∀ statement ∈ body, statement.Uncomments strict)
    (reads : Clause.ReadsGuarded strict word (.guarded read condition body span) tokens)
    (ordered : Token.Ordered tokens) :
    Clause.ReadsGuarded strict word ((Clause.guarded read condition body span).recast .uncommented)
      (Token.code tokens) := by
  cases reads with
  | @intro _ _ _ keyword inner header _ kind conditionReads ends bodyReads =>
    have conditionRead := conditionUncomments ordered.left.tail conditionReads
    have bodyRead := Statement.ReadsBody.uncommented_of each bodyReads ordered.right.tail
    have header : Token.Spans (keyword :: inner ++ [header]) ⟨keyword.start, header.stop⟩ :=
      Token.spans_between kind word.keyword_ne_comment ends nofun inner
    have extent := header.extent_code
    have whole := Clause.ReadsGuarded.intro kind conditionRead ends bodyRead
    rw [Token.code_append, Token.code_cons kind word.keyword_ne_comment,
      Token.code_cons ends nofun] at extent ⊢
    rw [Token.code_nil] at extent
    rw [extent] at whole
    exact whole

mutual

/-- Without its comments, an expression is read, or called, from the tokens that are not
comments. -/
theorem Expression.Reads.uncommented : ∀ (expression : Expression) {tokens : List Token},
    Token.Ordered tokens →
      (expression.Reads strict tokens →
        (expression.recast .uncommented).Reads strict (Token.code tokens)) ∧
      (expression.ReadsCallee strict tokens →
        (expression.recast .uncommented).ReadsCallee strict (Token.code tokens))
  | .binary operator left right span, tokens, ordered => by
    refine (fun read => ⟨read, .uncommented_of rfl read⟩) fun reads => ?_
    cases reads with
    | binary leftReads mark rightReads =>
      have leftRead := (Expression.Reads.uncommented left ordered.left).1 leftReads
      have rightRead := (Expression.Reads.uncommented right ordered.right.tail).1 rightReads
      have whole := Expression.Reads.binary leftRead mark rightRead
      rw [Expression.span_keeping, Expression.span_keeping] at whole
      rw [Token.code_append, Token.code_cons mark operator.token_ne_comment]
      exact whole
  | .unary operator argument span, tokens, ordered => by
    refine (fun read => ⟨read, .uncommented_of rfl read⟩) fun reads => ?_
    cases reads with
    | unary mark argumentReads =>
      have argumentRead := (Expression.Reads.uncommented argument ordered.tail).1 argumentReads
      have whole := Expression.Reads.unary mark argumentRead
      rw [Expression.span_keeping] at whole
      rw [Token.code_cons mark operator.token_ne_comment]
      exact whole
  | .call base arguments span, tokens, ordered => by
    refine (fun read => ⟨read, .uncommented_of rfl read⟩) fun reads => ?_
    cases reads with
    | call callee opens argumentsRead closes =>
      have baseRead := (Expression.Reads.uncommented base ordered.left.left).2 callee
      have argumentsReads := argumentsRead.uncommented_of fun reads =>
        Expression.ReadsAll.uncommented arguments reads ordered.left.right.tail
      have whole := Expression.Reads.call baseRead opens argumentsReads closes
      rw [Expression.span_keeping] at whole
      rw [Token.code_append, Token.code_append, Token.code_cons opens nofun,
        Token.code_cons closes nofun]
      exact whole
  | .stringCall base argument span, tokens, ordered => by
    refine (fun read => ⟨read, .uncommented_of rfl read⟩) fun reads => ?_
    cases reads with
    | stringCall callee isString found =>
      have baseRead := (Expression.Reads.uncommented base ordered.left).2 callee
      have whole := Expression.Reads.stringCall baseRead isString found
      rw [Expression.span_keeping] at whole
      rw [Token.code_append, Token.code_cons rfl (Token.ne_comment_of_isString isString)]
      exact whole
  | .tableCall base fields tableSpan span, tokens, ordered => by
    refine (fun read => ⟨read, .uncommented_of rfl read⟩) fun reads => ?_
    cases reads with
    | tableCall callee opens fieldsRead closes =>
      have baseRead := (Expression.Reads.uncommented base ordered.left.left).2 callee
      have fieldsReads := Field.ReadsAll.uncommented_of (Field.allUncomment fields) fieldsRead
        ordered.left.right.tail
      have whole := Expression.Reads.tableCall baseRead opens fieldsReads closes
      rw [Expression.span_keeping] at whole
      rw [Token.code_append, Token.code_append, Token.code_cons opens nofun,
        Token.code_cons closes nofun]
      exact whole
  | .function head parameters body span, tokens, ordered => by
    refine (fun read => ⟨read, .uncommented_of rfl read⟩) fun reads => ?_
    cases reads with
    | @function _ _ keyword inner kind functionReads =>
      have functionRead := functionReads.uncommented_of (Statement.allUncomment body) ordered.tail
      obtain ⟨stop, stops⟩ := functionReads.stops
      have extent := (Token.spans_extent (Token.startsAt_cons kind nofun _)
        (stops.cons keyword)).extent_code
      have whole := Expression.Reads.function kind functionRead
      rw [Token.code_cons kind nofun] at extent ⊢
      rw [extent] at whole
      exact whole
  | .group inner span, tokens, ordered => by
    refine (fun read => ⟨read, .uncommented_of rfl read⟩) fun reads => ?_
    cases reads with
    | group opens innerReads closes =>
      have innerRead := (Expression.Reads.uncommented inner ordered.left.tail).1 innerReads
      rw [Token.code_append, Token.code_cons opens nofun, Token.code_cons closes nofun]
      exact .group opens innerRead closes
  | .name identifier, tokens, ordered => by
    refine (fun read => ⟨read, .uncommented_of rfl read⟩) fun reads => ?_
    cases reads with
    | name nameReads =>
      rw [Token.code_cons nameReads.1 nofun]
      exact .name nameReads
  | .index base key span, tokens, ordered => by
    refine (fun read => ⟨read, .uncommented_of rfl read⟩) fun reads => ?_
    cases reads with
    | index isPrefix baseReads opens keyReads closes =>
      have baseRead := (Expression.Reads.uncommented base ordered.left.left).1 baseReads
      have keyRead := (Expression.Reads.uncommented key ordered.left.right.tail).1 keyReads
      have whole := Expression.Reads.index (by rwa [Expression.isPrefix_recast]) baseRead opens
        keyRead closes
      rw [Expression.span_keeping] at whole
      rw [Token.code_append, Token.code_append, Token.code_cons opens nofun,
        Token.code_cons closes nofun]
      exact whole
  | .member base selector selected span, tokens, ordered => by
    have asValue : (Expression.member base selector selected span).Reads strict tokens →
        ((Expression.member base selector selected span).recast .uncommented).Reads strict
          (Token.code tokens) := by
      intro reads
      cases reads with
      | member isPrefix baseReads mark nameReads =>
        have baseRead := (Expression.Reads.uncommented base ordered.left).1 baseReads
        have whole := Expression.Reads.member (by rwa [Expression.isPrefix_recast]) baseRead mark
          nameReads
        rw [Expression.span_keeping] at whole
        rw [Token.code_append, Token.code_cons mark nofun, Token.code_cons nameReads.1 nofun]
        exact whole
    refine ⟨asValue, fun callee => ?_⟩
    cases callee with
    | value isPrefix reads =>
      refine .value ?_ (asValue reads)
      rwa [Expression.isPrefix_recast]
    | method isPrefix baseReads mark nameReads =>
      have baseRead := (Expression.Reads.uncommented base ordered.left).1 baseReads
      have whole := Expression.ReadsCallee.method (by rwa [Expression.isPrefix_recast]) baseRead
        mark nameReads
      rw [Expression.span_keeping] at whole
      rw [Token.code_append, Token.code_cons mark nofun, Token.code_cons nameReads.1 nofun]
      exact whole
  | .literal constant, tokens, ordered => by
    refine (fun read => ⟨read, .uncommented_of rfl read⟩) fun reads => ?_
    cases reads with
    | literal literalReads =>
      rw [literalReads.code_eq]
      exact .literal literalReads
  | .table fields span, tokens, ordered => by
    refine (fun read => ⟨read, .uncommented_of rfl read⟩) fun reads => ?_
    cases reads with
    | table opens fieldsRead closes =>
      have fieldsReads := Field.ReadsAll.uncommented_of (Field.allUncomment fields) fieldsRead
        ordered.left.tail
      rw [Token.code_append, Token.code_cons opens nofun, Token.code_cons closes nofun]
      exact .table opens fieldsReads closes

/-- Expressions are read without the comments in them. -/
theorem Expression.ReadsAll.uncommented : ∀ (expressions : List Expression) {tokens : List Token},
    Expression.ReadsAll strict expressions tokens → Token.Ordered tokens →
      Expression.ReadsAll strict (Expression.recastAll .uncommented expressions)
        (Token.code tokens)
  | [], _, reads, _ => by cases reads
  | expression :: rest, _, reads, ordered => by
    cases reads with
    | single reads => exact .single ((Expression.Reads.uncommented expression ordered).1 reads)
    | cons reads mark others =>
      rw [Token.code_append, Token.code_cons mark nofun]
      exact .cons ((Expression.Reads.uncommented expression ordered.left).1 reads) mark
        (Expression.ReadsAll.uncommented rest others ordered.right.tail)

/-- The step of a loop is read without the comments in it. -/
theorem Expression.ReadsStep.uncommented : ∀ (step : Option Expression) {tokens : List Token},
    Expression.ReadsStep strict step tokens → Token.Ordered tokens →
      Expression.ReadsStep strict (Expression.recastOptional .uncommented step)
        (Token.code tokens)
  | none, _, reads, _ => by
    cases reads
    exact .none
  | some step, _, reads, ordered => by
    cases reads with
    | some mark reads =>
      rw [Token.code_cons mark nofun]
      exact .some mark ((Expression.Reads.uncommented step ordered.tail).1 reads)

theorem Field.uncomments : ∀ field : Field, field.Uncomments strict
  | .keyed key value span, _, reads, ordered => by
    have spans := (Field.Reads.spans reads ordered).extent_code
    cases reads with
    | keyed opens keyReads closes mark valueReads =>
      have keyRead := (Expression.Reads.uncommented key ordered.left.tail).1 keyReads
      have valueRead := (Expression.Reads.uncommented value ordered.right.tail.tail).1 valueReads
      refine ⟨_, rfl, ?_⟩
      have whole := Field.Reads.keyed opens keyRead closes mark valueRead
      rw [Token.code_append, Token.code_cons opens nofun, Token.code_cons closes nofun,
        Token.code_cons mark nofun] at spans ⊢
      rw [spans] at whole
      exact whole
  | .named name value span, _, reads, ordered => by
    have spans := (Field.Reads.spans reads ordered).extent_code
    cases reads with
    | named nameReads mark valueReads =>
      have valueRead := (Expression.Reads.uncommented value ordered.tail.tail).1 valueReads
      refine ⟨_, rfl, ?_⟩
      have whole := Field.Reads.named nameReads mark valueRead
      rw [Token.code_cons nameReads.1 nofun, Token.code_cons mark nofun] at spans ⊢
      rw [spans] at whole
      exact whole
  | .positional value, _, reads, ordered => by
    cases reads with
    | positional reads =>
      exact ⟨_, rfl, .positional ((Expression.Reads.uncommented value ordered).1 reads)⟩
  | .comment _, _, reads, _ => by cases reads

theorem Field.allUncomment : ∀ fields : List Field, ∀ field ∈ fields, field.Uncomments strict
  | [] => fun _ member => nomatch member
  | field :: rest => List.forall_mem_cons.2 ⟨Field.uncomments field, Field.allUncomment rest⟩

theorem Clause.ReadsGuarded.uncommented : ∀ (clause : Clause) {word : ClauseWord}
    {tokens : List Token}, Clause.ReadsGuarded strict word clause tokens → Token.Ordered tokens →
      Clause.ReadsGuarded strict word (clause.recast .uncommented) (Token.code tokens)
  | .guarded _ condition body _, _, _, reads, ordered =>
    reads.uncommented_of (fun ordered => (Expression.Reads.uncommented condition ordered).1)
      (Statement.allUncomment body) ordered
  | .otherwise .., _, _, reads, _ => by cases reads

theorem Clause.ReadsFurther.uncommented : ∀ (clauses : List Clause) {tokens : List Token},
    Clause.ReadsFurther strict clauses tokens → Token.Ordered tokens →
      Clause.ReadsFurther strict (Clause.recastAll .uncommented clauses) (Token.code tokens)
  | [], _, reads, _ => by
    cases reads
    exact .nil
  | .guarded word condition body span :: rest, _, reads, ordered => by
    cases reads with
    | cons clauseReads others =>
      rw [Token.code_append]
      exact .cons (Clause.ReadsGuarded.uncommented (.guarded word condition body span) clauseReads
        ordered.left) (Clause.ReadsFurther.uncommented rest others ordered.right)
  | .otherwise body span :: rest, _, reads, ordered => by
    cases reads with
    | otherwise kind bodyReads =>
      rw [Token.code_cons kind nofun]
      exact .otherwise kind
        (Statement.ReadsBody.uncommented_of (Statement.allUncomment body) bodyReads ordered.tail)
    | cons clauseReads => cases clauseReads

theorem Statement.uncomments : ∀ statement : Statement, statement.Uncomments strict
  | .assignment targets values span, _, reads, ordered, _ => by
    have targetsUncommented := @Expression.ReadsAll.uncommented targets
    cases reads with
    | @assignment target targets _ before mark after assignable targetsRead kind valuesRead =>
      have targetsReads := targetsUncommented targetsRead ordered.left
      have valuesReads := Expression.ReadsAll.uncommented values valuesRead ordered.right.tail
      have extent := (valuesRead.spans ordered.right.tail).1.extent_code
      refine ⟨_, rfl, rfl, ?_⟩
      have whole := Statement.Reads.assignment
        ((Expression.all_isAssignable_recastAll .uncommented (target :: targets)).trans assignable)
        targetsReads kind valuesReads
      rw [Expression.span_keeping, extent] at whole
      rw [Token.code_append, Token.code_cons kind nofun]
      exact whole
  | .breakLoop _, _, reads, _, _ => by
    cases reads with
    | breakLoop kind =>
      rw [Token.code_cons kind nofun]
      exact ⟨_, rfl, rfl, .breakLoop kind⟩
  | .call expression span, _, reads, ordered, _ => by
    cases reads with
    | call isCall reads =>
      have read := (Expression.Reads.uncommented expression ordered).1 reads
      have whole := Statement.Reads.call (by rwa [Expression.isCall_recast]) read
      rw [Expression.span_keeping] at whole
      exact ⟨_, rfl, rfl, whole⟩
  | .comment _, _, _, _, isCode => nomatch isCode
  | .doBlock body _, _, reads, ordered, _ => by
    cases reads with
    | doBlock opens bodyReads closes =>
      have bodyRead := Statement.ReadsBody.uncommented_of (Statement.allUncomment body) bodyReads
        ordered.left.tail
      rw [Token.code_append, Token.code_cons opens nofun, Token.code_cons closes nofun]
      exact ⟨_, rfl, rfl, .doBlock opens bodyRead closes⟩
  | .genericFor declared iterators body _, _, reads, ordered, _ => by
    cases reads with
    | genericFor opens namesRead word iteratorsRead header bodyReads closes =>
      have iteratorsReads := Expression.ReadsAll.uncommented iterators iteratorsRead
        ordered.left.left.right.tail
      have bodyRead := Statement.ReadsBody.uncommented_of (Statement.allUncomment body) bodyReads
        ordered.left.right.tail
      have whole := Statement.Reads.genericFor opens namesRead word iteratorsReads header bodyRead
        closes
      refine ⟨_, rfl, rfl, ?_⟩
      rw [Name.map_recast_keeping]
      rw [Token.code_append, Token.code_append, Token.code_append, Token.code_cons opens nofun,
        Token.code_cons word nofun, Token.code_cons header nofun, Token.code_cons closes nofun,
        namesRead.code_eq nofun]
      exact whole
  | .numericFor counter first last step body _, _, reads, ordered, _ => by
    cases reads with
    | numericFor opens counterReads equal firstReads comma lastReads stepReads header bodyReads
        closes =>
      have firstRead := (Expression.Reads.uncommented first
        ordered.left.left.left.left.tail.tail.tail).1 firstReads
      have lastRead := (Expression.Reads.uncommented last
        ordered.left.left.left.right.tail).1 lastReads
      have stepRead := Expression.ReadsStep.uncommented step stepReads ordered.left.left.right
      have bodyRead := Statement.ReadsBody.uncommented_of (Statement.allUncomment body) bodyReads
        ordered.left.right.tail
      refine ⟨_, rfl, rfl, ?_⟩
      rw [Token.code_append, Token.code_append, Token.code_append, Token.code_append,
        Token.code_cons opens nofun, Token.code_cons counterReads.1 nofun,
        Token.code_cons equal nofun, Token.code_cons comma nofun, Token.code_cons header nofun,
        Token.code_cons closes nofun]
      exact .numericFor opens counterReads equal firstRead comma lastRead stepRead header bodyRead
        closes
  | .function head parameters body span, _, reads, ordered, isCode => by
    have spans := (Statement.Reads.spans reads ordered isCode).extent_code
    cases reads with
    | function opens nameReads functionReads =>
      have functionRead := functionReads.uncommented_of (Statement.allUncomment body)
        ordered.right
      have whole := Statement.Reads.function opens nameReads functionRead
      refine ⟨_, rfl, rfl, ?_⟩
      rw [FunctionHead.recast_keeping]
      rw [Token.code_append, Token.code_cons opens nofun, nameReads.code_eq] at spans ⊢
      rw [spans] at whole
      exact whole
    | localFunction opens word nameReads functionReads =>
      have functionRead := functionReads.uncommented_of (Statement.allUncomment body)
        ordered.tail.tail.tail
      have whole := Statement.Reads.localFunction opens word nameReads functionRead
      refine ⟨_, rfl, rfl, ?_⟩
      rw [FunctionHead.recast_keeping]
      rw [Token.code_cons opens nofun, Token.code_cons word nofun,
        Token.code_cons nameReads.1 nofun] at spans ⊢
      rw [spans] at whole
      exact whole
  | .goto target _, _, reads, _, _ => by
    cases reads with
    | goto opens targetReads =>
      rw [Token.code_cons opens nofun, Token.code_cons targetReads.1 nofun]
      exact ⟨_, rfl, rfl, .goto opens targetReads⟩
  | .ifElse [] _, _, reads, _, _ => by cases reads
  | .ifElse (clause :: rest) _, _, reads, ordered, _ => by
    cases reads with
    | ifElse clauseReads furtherRead closes =>
      have clauseRead := Clause.ReadsGuarded.uncommented clause clauseReads ordered.left.left
      have furtherReads := Clause.ReadsFurther.uncommented rest furtherRead ordered.left.right
      have starts := clauseReads.starts
      have whole := Statement.Reads.ifElse clauseRead furtherReads closes
      rw [starts.code.extent_start, ← starts.extent_start] at whole
      refine ⟨_, rfl, rfl, ?_⟩
      rw [Token.code_append, Token.code_append, Token.code_cons closes nofun]
      exact whole
  | .label name _, _, reads, _, _ => by
    cases reads with
    | label opens nameReads closes =>
      rw [Token.code_cons opens nofun, Token.code_cons nameReads.1 nofun,
        Token.code_cons closes nofun]
      exact ⟨_, rfl, rfl, .label opens nameReads closes⟩
  | .localVariables declared values span, _, reads, ordered, isCode => by
    have spans := (Statement.Reads.spans reads ordered isCode).extent_code
    cases reads with
    | localNames opens namesRead =>
      refine ⟨_, rfl, rfl, ?_⟩
      rw [Name.map_recast_keeping]
      rw [Token.code_cons opens nofun, namesRead.code_eq nofun]
      exact .localNames opens namesRead
    | localVariables opens namesRead mark valuesRead =>
      have valuesReads := Expression.ReadsAll.uncommented values valuesRead ordered.right.tail
      have whole := Statement.Reads.localVariables opens namesRead mark valuesReads
      refine ⟨_, rfl, rfl, ?_⟩
      rw [Name.map_recast_keeping]
      rw [Token.code_append, Token.code_cons opens nofun, Token.code_cons mark nofun,
        namesRead.code_eq nofun] at spans ⊢
      rw [spans] at whole
      exact whole
  | .repeatUntil body condition span, _, reads, ordered, isCode => by
    have spans := (Statement.Reads.spans reads ordered isCode).extent_code
    cases reads with
    | repeatUntil opens bodyReads word conditionReads =>
      have bodyRead := Statement.ReadsBody.uncommented_of (Statement.allUncomment body) bodyReads
        ordered.left.tail
      have conditionRead := (Expression.Reads.uncommented condition ordered.right.tail).1
        conditionReads
      have whole := Statement.Reads.repeatUntil opens bodyRead word conditionRead
      refine ⟨_, rfl, rfl, ?_⟩
      rw [Token.code_append, Token.code_cons opens nofun, Token.code_cons word nofun] at spans ⊢
      rw [spans] at whole
      exact whole
  | .returnValues values span, _, reads, ordered, isCode => by
    have spans := (Statement.Reads.spans reads ordered isCode).extent_code
    cases reads with
    | @returnValues _ keyword inner final opens valuesRead ends =>
      have valuesReads := valuesRead.uncommented_of fun reads =>
        Expression.ReadsAll.uncommented values reads ordered.left.tail
      have finalCode : Token.code final = final := by
        rcases ends with rfl | ⟨-, mark, kind, rfl⟩
        · rfl
        · exact Token.code_cons kind nofun []
      have whole := Statement.Reads.returnValues opens valuesReads ends
      refine ⟨_, rfl, rfl, ?_⟩
      rw [Token.code_append, Token.code_cons opens nofun, finalCode] at spans ⊢
      rw [spans] at whole
      exact whole
  | .whileLoop condition body _, _, reads, ordered, _ => by
    cases reads with
    | whileLoop opens conditionReads header bodyReads closes =>
      have conditionRead := (Expression.Reads.uncommented condition ordered.left.left.tail).1
        conditionReads
      have bodyRead := Statement.ReadsBody.uncommented_of (Statement.allUncomment body) bodyReads
        ordered.left.right.tail
      rw [Token.code_append, Token.code_append, Token.code_cons opens nofun,
        Token.code_cons header nofun, Token.code_cons closes nofun]
      exact ⟨_, rfl, rfl, .whileLoop opens conditionRead header bodyRead closes⟩

theorem Statement.allUncomment : ∀ body : List Statement,
    ∀ statement ∈ body, statement.Uncomments strict
  | [] => fun _ member => nomatch member
  | statement :: rest =>
    List.forall_mem_cons.2 ⟨Statement.uncomments statement, Statement.allUncomment rest⟩

end

end

end LuaStyle
