/-
This file proves that a laid-out statement is cut into the tokens of its surface.

Every form of statement is laid out as its words, its expressions and its block in order, with a
space or a line break wherever two of them could run into each other. A clause that another one
follows ends with its line; only the last one is closed by the word behind it.
-/

import LuaStyle.Proofs.LaidBlocks

namespace LuaStyle

variable {config : Config} {rest : List Char}

/-! ### Words -/

/-- A reserved word with a space behind it. -/
theorem Doc.cuts_wordSpace (word : Token.Keyword) (rest : List Char) :
    (Doc.ofText (word.text ++ [' '])).Cuts config rest (Doc.One (.keyword word)) := by
  rw [Doc.ofText, List.map_append]
  exact Doc.Cuts.thenSpace (Doc.cuts_word word (Token.endsName_cons rfl rest))

/-! ### Functions -/

/-- The tokens are those of the parameters and the parentheses around them. -/
def Parameter.WrittenParens (parameters : List Parameter) (tokens : List Token) : Prop :=
  ∃ opening inner closing, tokens = opening :: inner ++ [closing] ∧
    opening.kind = .symbol .leftParen ∧ Parameter.WrittenAll parameters inner ∧
    closing.kind = .symbol .rightParen

/-- Parameters are read back. -/
theorem Parameter.cuts_docs {parameters : List Parameter}
    (grammatical : Parameter.AreGrammatical parameters) (rest : List Char) :
    (Parameter.docs parameters).Cuts config rest (Parameter.WrittenParens parameters) := by
  have inner : Doc.Cuts config _ (')' :: rest) _ :=
    Parameter.cuts_commaSeparated grammatical.1 grammatical.2 (Token.endsName_cons rfl rest)
  refine Doc.Cuts.mono (.append (.append (Doc.cuts_mark .leftParen (fun _ => rfl) _) inner)
    (Doc.cuts_mark .rightParen (fun _ => rfl) rest)) ?_
  rintro _ ⟨_, _, rfl, ⟨_, tokens, rfl, ⟨opening, rfl, opens⟩, written⟩, closing, rfl, closes⟩
  exact ⟨opening, tokens, closing, rfl, opens, written, closes⟩

namespace Statement

/-- Parameters and a block that were read make a function. -/
theorem writtenFunction {parameters : List Parameter} {body : List Statement}
    {before tokens : List Token} {last : Token}
    (parametersWritten : Parameter.WrittenParens parameters before)
    (bodyWritten : WrittenBody body tokens) (ends : last.kind = .keyword .endWord) :
    WrittenFunction parameters body (before ++ tokens ++ [last]) := by
  obtain ⟨opening, inner, closing, rfl, opens, ⟨readParameters, parametersRead, sameParameters⟩,
    closes⟩ := parametersWritten
  obtain ⟨readBody, bodyRead, sameBody⟩ := bodyWritten
  have reads := ReadsFunction.intro opens parametersRead closes bodyRead ends
  refine ⟨readParameters, readBody, ?_, sameParameters, sameBody⟩
  simpa only [List.append_assoc, List.cons_append, List.nil_append] using reads

/-- A function from its opening parenthesis on. -/
theorem AreLaid.cuts_function {parameters : List Parameter} {body : List Statement}
    {docs : List Doc} (laid : AreLaid config body docs) (isBlock : Statement.isBlock body)
    (grammatical : Parameter.AreGrammatical parameters) (depth : Nat)
    (ends : Token.EndsName rest) :
    (Parameter.docs parameters ++ (blockDoc config depth true body docs
      ++ Doc.ofText "end".toList)).Cuts config rest
        (WrittenFunction parameters (surfaces body)) := by
  refine Doc.Cuts.mono (.append (Parameter.cuts_docs grammatical _)
    (.append (laid.cuts_blockDoc isBlock depth nofun) (Doc.cuts_word .endWord ends))) ?_
  rintro _ ⟨before, _, rfl, parametersWritten, tokens, _, rfl, bodyWritten, last, rfl, kind⟩
  rw [← List.append_assoc]
  exact writtenFunction parametersWritten bodyWritten kind

end Statement

/-- A function as a value is read back. -/
theorem Expression.laid_function {parameters : List Parameter} {body : List Statement}
    {docs : List Doc} {span : Span} (laid : Statement.AreLaid config body docs)
    (isBlock : Statement.isBlock body) (grammatical : Parameter.AreGrammatical parameters)
    (depth : Nat) : (function .anonymous parameters body span).Laid config
      (Doc.ofText "function".toList ++ Parameter.docs parameters
        ++ Statement.blockDoc config depth true body docs ++ Doc.ofText "end".toList) where
  cuts := by
    intro rest follows
    have ends : Token.EndsName rest := Token.Stops.endsName follows
    have further := laid.cuts_function isBlock grammatical depth ends
    rw [List.append_assoc, List.append_assoc]
    refine Doc.Cuts.mono
      (.append (Doc.cuts_word .functionWord (Token.endsName_cons rfl _)) further) ?_
    rintro _ ⟨_, tokens, rfl, ⟨mark, rfl, kind⟩, written⟩
    rw [surface]
    exact written_function kind written
  starts := ⟨'f', _, rfl, rfl⟩
  plain := fun _ => by rw [surface]; rfl

/-! ### Statements without blocks -/

namespace Statement

variable {tokens : List Token}

theorem written_of_reads {read statement : Statement} (reads : read.Reads true tokens)
    (same : read.recast .shown = statement.recast .shown) : statement.Written tokens :=
  ⟨read, reads, same⟩

/-- A comment among statements is read back. -/
theorem laid_comment {remark : Comment} (spelled : remark.IsSpelled) (depth : Nat) :
    (comment remark).Laid config (remark.doc depth) where
  cuts := by
    intro rest follows
    have ends : LineEnds rest := follows
    refine (Comment.cuts_doc spelled depth ends).mono ?_
    rintro _ ⟨token, rfl, kind, same⟩
    rw [surface]
    refine written_of_reads (.comment kind) ?_
    exact congrArg (fun remark => [comment remark]) same
  starts := by
    cases multi : remark.isMulti with
    | true =>
      rw [Comment.doc_of_isMulti multi]
      exact ⟨'-', _, rfl, rfl⟩
    | false =>
      rw [Comment.doc_of_isSingle multi]
      exact ⟨'-', _, rfl, rfl⟩

/-- The word that leaves a loop is read back. -/
theorem laid_breakLoop {span : Span} :
    (breakLoop span).Laid config (Doc.ofText "break".toList) where
  cuts := by
    intro rest follows
    have stops : Token.Stops rest := follows
    refine (Doc.cuts_word .breakWord stops.endsName).mono ?_
    rintro _ ⟨keyword, rfl, kind⟩
    rw [surface]
    exact written_of_reads (.breakLoop kind) rfl
  starts := ⟨'b', _, rfl, rfl⟩

/-- A jump is read back with its label. -/
theorem laid_goto {target : Name} {span : Span} (named : target.IsGrammatical) :
    (goto target span).Laid config (Doc.ofText ("goto ".toList ++ target.text)) where
  cuts := by
    intro rest follows
    have stops : Token.Stops rest := follows
    rw [Doc.ofText, List.map_append]
    refine Doc.Cuts.mono
      (.append (Doc.cuts_wordSpace .gotoWord _) (Doc.cuts_name named stops.endsName)) ?_
    rintro _ ⟨_, _, rfl, ⟨keyword, rfl, kind⟩, token, rfl, read, reads, same⟩
    rw [surface]
    refine written_of_reads (.goto kind reads) ?_
    rw [recast, recast, same]
    rfl
  starts := ⟨'g', _, rfl, rfl⟩

/-- A label is read back. -/
theorem laid_label {name : Name} {span : Span} (named : name.IsGrammatical) :
    (label name span).Laid config
      (Doc.ofText ("::".toList ++ name.text ++ "::".toList)) where
  cuts := by
    intro rest _
    rw [Doc.ofText, List.map_append, List.map_append]
    have nameCuts : Doc.Cuts config _ (':' :: ':' :: rest) _ :=
      Doc.cuts_name named (Token.endsName_cons rfl _)
    refine Doc.Cuts.mono
      (.append (.append (Doc.cuts_mark .colonColon (fun _ => rfl) _) nameCuts)
        (Doc.cuts_mark .colonColon (fun _ => rfl) _)) ?_
    rintro _ ⟨_, _, rfl, ⟨_, _, rfl, ⟨opening, rfl, opens⟩, token, rfl, read, reads, same⟩,
      closing, rfl, closes⟩
    rw [surface]
    refine written_of_reads (.label opens reads closes) ?_
    rw [recast, recast, same]
    rfl
  starts := ⟨':', _, rfl, rfl⟩

/-- A call is read back as a statement. -/
theorem laid_call {expression : Expression} {span : Span} {doc : Doc}
    (isCall : expression.isCall) (laid : expression.Laid config doc) :
    (call expression span).Laid config doc where
  cuts := by
    intro rest follows
    have stops : Token.Stops rest := follows
    have plain : expression.isMethod = false := by
      cases expression with
      | member => cases isCall
      | _ => rfl
    refine (laid.cuts rest (Expression.follows_of_stops stops)).mono ?_
    intro tokens written
    obtain ⟨read, reads, same⟩ := written.value (laid.plain plain)
    rw [surface]
    refine written_of_reads (.call ?_ reads) ?_
    · rw [← read.isCall_recast .shown, same, Expression.isCall_recast, Expression.isCall_surface]
      exact isCall
    · rw [recast, recast, same]
      rfl
  starts := by
    obtain ⟨c, more, same, opens⟩ := laid.starts
    exact ⟨c, more, same, Expression.Form.isSpace_of_canOpen opens⟩

/-- What can be assigned to selects no method. -/
theorem isMethod_of_isAssignable {expression : Expression}
    (assignable : Grammar.isAssignable expression) : expression.isMethod = false := by
  cases expression with
  | member _ selector =>
    cases selector with
    | dot => rfl
    | colon => cases assignable
  | _ => rfl

/-- What can be assigned to is written so that it can. -/
theorem isAssignable_surface {expression : Expression}
    (assignable : Grammar.isAssignable expression) :
    Grammar.isAssignable expression.surface := by
  cases expression with
  | name | index => rw [Expression.surface]; rfl
  | member _ selector =>
    cases selector with
    | dot => rw [Expression.surface]; rfl
    | colon => cases assignable
  | _ => cases assignable

theorem all_isAssignable_surfaces {expressions : List Expression}
    (assignable : expressions.all Grammar.isAssignable) :
    (Expression.surfaces expressions).all Grammar.isAssignable := by
  induction expressions with
  | nil => rw [Expression.surfaces]; rfl
  | cons expression rest inductionHypothesis =>
    rw [List.all_cons, Bool.and_eq_true] at assignable
    rw [Expression.surfaces, List.all_cons, isAssignable_surface assignable.1,
      inductionHypothesis assignable.2]
    rfl

theorem starts_commaSeparated {expressions : List Expression} {docs : List Doc}
    (laid : Expression.AreLaid config expressions docs) (nonempty : expressions ≠ [])
    (further : Doc) : ∃ c more, Doc.commaSeparated docs ++ further = .char c :: more ∧
      Token.isSpace c = false := by
  cases laid with
  | nil => exact absurd rfl nonempty
  | cons first others =>
    obtain ⟨c, more, rfl, opens⟩ := first.starts
    have solid := Expression.Form.isSpace_of_canOpen opens
    cases others with
    | nil =>
      rw [Doc.commaSeparated_singleton]
      exact ⟨c, _, rfl, solid⟩
    | cons =>
      rw [Doc.commaSeparated_cons]
      exact ⟨c, _, rfl, solid⟩

/-- An assignment is read back with its targets and values. -/
theorem laid_assignment {targets values : List Expression} {targetDocs valueDocs : List Doc}
    {span : Span} (targetsLaid : Expression.AreLaid config targets targetDocs)
    (nonempty : targets ≠ []) (assignable : targets.all Grammar.isAssignable)
    (valuesLaid : Expression.AreLaid config values valueDocs) (some : values ≠ [])
    (areValues : Expression.areValues values) : (assignment targets values span).Laid config
      (Doc.commaSeparated targetDocs ++ Doc.ofText " = ".toList
        ++ Doc.commaSeparated valueDocs) where
  cuts := by
    intro rest follows
    have stops : Token.Stops rest := follows
    have targetValues : Expression.areValues targets := by
      rw [Expression.areValues, List.all_eq_true]
      intro target member
      rw [isMethod_of_isAssignable (List.all_eq_true.1 assignable target member)]
      rfl
    have targetsCut {rest : List Char} (stops : Token.Stops rest) :=
      targetsLaid.cuts_commaSeparated nonempty targetValues stops
    refine Doc.Cuts.mono (.append
      (.append (targetsCut (Token.stops_cons rfl _)) (Field.cuts_equal config _))
      (valuesLaid.cuts_commaSeparated some areValues stops)) ?_
    rintro _ ⟨_, after, rfl, ⟨before, _, rfl, ⟨readTargets, targetsRead, sameTargets⟩, mark, rfl,
      kind⟩, readValues, valuesRead, sameValues⟩
    have readAssignable : readTargets.all Grammar.isAssignable := by
      rw [← Expression.all_isAssignable_recastAll .shown, sameTargets,
        Expression.all_isAssignable_recastAll]
      exact all_isAssignable_surfaces assignable
    rw [surface, List.append_assoc]
    cases readTargets with
    | nil => cases targetsRead
    | cons target others =>
      refine written_of_reads (.assignment readAssignable targetsRead kind valuesRead) ?_
      rw [recast, recast, sameTargets, sameValues]
      rfl
  starts := by
    rw [List.append_assoc]
    exact starts_commaSeparated targetsLaid nonempty _

/-- A declaration of local variables is read back, with or without values. -/
theorem laid_localVariables {declared : List Name} {values : List Expression}
    {valueDocs : List Doc} {span : Span} (nonempty : declared ≠ [])
    (named : ∀ name ∈ declared, name.IsGrammatical)
    (laid : Expression.AreLaid config values valueDocs) (areValues : Expression.areValues values) :
    (localVariables declared values span).Laid config
      (Doc.ofText "local ".toList ++ Name.docs declared
        ++ (if values.isEmpty then []
          else Doc.ofText " = ".toList ++ Doc.commaSeparated valueDocs)) where
  cuts := by
    intro rest follows
    have stops : Token.Stops rest := follows
    cases values with
    | nil =>
      rw [List.isEmpty_nil, if_pos rfl, List.append_nil]
      refine Doc.Cuts.mono (.append (Doc.cuts_wordSpace .localWord _)
        (Name.cuts_docs nonempty named stops.endsName)) ?_
      rintro _ ⟨_, tokens, rfl, ⟨keyword, rfl, kind⟩, read, reads, same⟩
      rw [surface]
      refine written_of_reads (.localNames kind reads) ?_
      rw [recast, recast, same, Expression.surfaces]
      rfl
    | cons value values =>
      rw [List.isEmpty_cons, if_neg Bool.false_ne_true]
      have namesCut (rest : List Char) : Doc.Cuts config _ (' ' :: rest) _ :=
        Name.cuts_docs nonempty named (Token.endsName_cons rfl rest)
      refine Doc.Cuts.mono (.append (.append (Doc.cuts_wordSpace .localWord _) (namesCut _))
        (.append (Field.cuts_equal config _)
          (laid.cuts_commaSeparated (List.cons_ne_nil _ _) areValues stops))) ?_
      rintro _ ⟨_, _, rfl, ⟨_, before, rfl, ⟨keyword, rfl, kind⟩, read, reads, same⟩, _, after, rfl,
        ⟨mark, rfl, equal⟩, readValues, valuesRead, sameValues⟩
      rw [surface]
      refine written_of_reads (.localVariables kind reads equal valuesRead) ?_
      rw [recast, recast, same, sameValues]
      rfl
  starts := ⟨'l', _, rfl, rfl⟩

/-- What a function returns is read back. -/
theorem laid_returnValues {values : List Expression} {valueDocs : List Doc} {span : Span}
    (laid : Expression.AreLaid config values valueDocs) (areValues : Expression.areValues values) :
    (returnValues values span).Laid config
      (Doc.ofText "return".toList
        ++ (if values.isEmpty then [] else .char ' ' :: Doc.commaSeparated valueDocs)) where
  cuts := by
    intro rest follows
    have stops : Token.Stops rest := follows
    have written {tokens : List Token} {keyword : Token}
        (kind : keyword.kind = .keyword .returnWord)
        (arguments : Expression.WrittenArguments (Expression.surfaces values) tokens) :
        (returnValues values span).surface.Written (keyword :: tokens) := by
      obtain ⟨read, reads, same⟩ := arguments
      have whole := Reads.returnValues kind reads (.inl rfl)
      rw [List.append_nil] at whole
      rw [surface]
      refine written_of_reads whole ?_
      rw [recast, recast, same]
      rfl
    have inner := laid.cuts_arguments areValues stops
    cases values with
    | nil =>
      cases laid
      refine Doc.Cuts.mono (.append (Doc.cuts_word .returnWord stops.endsName) inner) ?_
      rintro _ ⟨_, tokens, rfl, ⟨keyword, rfl, kind⟩, arguments⟩
      exact written kind arguments
    | cons value values =>
      refine Doc.Cuts.mono
        (.append (Doc.cuts_word .returnWord (Token.endsName_cons rfl _)) inner.space) ?_
      rintro _ ⟨_, tokens, rfl, ⟨keyword, rfl, kind⟩, arguments⟩
      exact written kind arguments
  starts := ⟨'r', _, rfl, rfl⟩

/-! ### Statements with blocks -/

variable {body : List Statement} {docs : List Doc} {span : Span}

/-- A block and the word behind it. -/
theorem AreLaid.cuts_closed (laid : AreLaid config body docs) (isBlock : Statement.isBlock body)
    (depth : Nat) (ends : Token.EndsName rest) :
    (blockDoc config depth true body docs ++ Doc.ofText "end".toList).Cuts config rest
      (Token.Joined (WrittenBody (surfaces body)) (Doc.One (.keyword .endWord))) :=
  .append (laid.cuts_blockDoc isBlock depth nofun) (Doc.cuts_word .endWord ends)

/-- A name may end where a block starts. -/
theorem endsName_blockDoc (depth : Nat) (body : List Statement) (docs : List Doc)
    (rest : List Char) :
    Token.EndsName ((blockDoc config depth true body docs).written config ++ rest) :=
  (stops_blockDoc depth body docs fun closed : true = false => nomatch closed).endsName

/-- The word `do` in front of a block. -/
theorem cuts_do (depth : Nat) (body : List Statement) (docs : List Doc) (further : Doc) :
    (Doc.ofText " do".toList).Cuts config
      ((blockDoc config depth true body docs ++ further).written config ++ rest)
      (Doc.One (.keyword .doWord)) := by
  rw [Doc.written_append, List.append_assoc]
  exact Doc.Cuts.space (Doc.cuts_word .doWord (endsName_blockDoc depth body docs _))

/-- A block on its own is read back. -/
theorem laid_doBlock (laid : AreLaid config body docs) (isBlock : Statement.isBlock body)
    (depth : Nat) : (doBlock body span).Laid config
      (Doc.ofText "do".toList ++ blockDoc config depth true body docs
        ++ Doc.ofText "end".toList) where
  cuts := by
    intro rest follows
    have stops : Token.Stops rest := follows
    rw [List.append_assoc]
    refine Doc.Cuts.mono (.append (Doc.cuts_word .doWord ?_)
      (laid.cuts_closed isBlock depth stops.endsName)) ?_
    · rw [Doc.written_append, List.append_assoc]
      exact endsName_blockDoc depth body docs _
    · rintro _ ⟨_, _, rfl, ⟨keyword, rfl, kind⟩, tokens, _, rfl, ⟨read, reads, same⟩, last, rfl,
        ends⟩
      rw [surface]
      refine written_of_reads (.doBlock kind reads ends) ?_
      rw [recast, recast, same]
      rfl
  starts := ⟨'d', _, rfl, rfl⟩

theorem laid_whileLoop {condition : Expression} {conditionDoc : Doc}
    (conditionLaid : condition.Laid config conditionDoc) (plain : condition.isMethod = false)
    (laid : AreLaid config body docs) (isBlock : Statement.isBlock body) (depth : Nat) :
    (whileLoop condition body span).Laid config
      (Doc.ofText "while ".toList ++ conditionDoc ++ Doc.ofText " do".toList
        ++ blockDoc config depth true body docs ++ Doc.ofText "end".toList) where
  cuts := by
    intro rest follows
    have stops : Token.Stops rest := follows
    have conditionCuts (rest : List Char) := conditionLaid.cuts (' ' :: rest)
      (Expression.follows_of_stops (Token.stops_cons rfl rest))
    rw [List.append_assoc _ (blockDoc ..)]
    refine Doc.Cuts.mono (.append
      (.append (.append (Doc.cuts_wordSpace .whileWord _) (conditionCuts _))
        (cuts_do depth body docs _))
      (laid.cuts_closed isBlock depth stops.endsName)) ?_
    rintro _ ⟨_, _, rfl, ⟨_, _, rfl, ⟨_, inner, rfl, ⟨keyword, rfl, kind⟩, conditionWritten⟩,
      header, rfl, doKind⟩, tokens, _, rfl, ⟨read, reads, same⟩, last, rfl, ends⟩
    obtain ⟨readCondition, conditionReads, sameCondition⟩ :=
      conditionWritten.value (conditionLaid.plain plain)
    have whole := Reads.whileLoop kind conditionReads doKind reads ends
    rw [surface]
    simp only [List.append_assoc, List.cons_append, List.nil_append] at whole ⊢
    refine written_of_reads whole ?_
    rw [recast, recast, sameCondition, same]
    rfl
  starts := ⟨'w', _, rfl, rfl⟩

theorem laid_repeatUntil {condition : Expression} {conditionDoc : Doc}
    (conditionLaid : condition.Laid config conditionDoc) (plain : condition.isMethod = false)
    (laid : AreLaid config body docs) (isBlock : Statement.isBlock body) (depth : Nat) :
    (repeatUntil body condition span).Laid config
      (Doc.ofText "repeat".toList ++ blockDoc config depth true body docs
        ++ Doc.ofText "until ".toList ++ conditionDoc) where
  cuts := by
    intro rest follows
    have stops : Token.Stops rest := follows
    refine Doc.Cuts.mono (.append
      (.append (.append (Doc.cuts_word .repeatWord (endsName_blockDoc depth body docs _))
        (laid.cuts_blockDoc isBlock depth nofun)) (Doc.cuts_wordSpace .untilWord _))
      (conditionLaid.cuts rest (Expression.follows_of_stops stops))) ?_
    rintro _ ⟨_, after, rfl, ⟨_, _, rfl, ⟨_, tokens, rfl, ⟨keyword, rfl, kind⟩, read, reads, same⟩,
      word, rfl, untilKind⟩, conditionWritten⟩
    obtain ⟨readCondition, conditionReads, sameCondition⟩ :=
      conditionWritten.value (conditionLaid.plain plain)
    have whole := Reads.repeatUntil kind reads untilKind conditionReads
    rw [surface]
    simp only [List.append_assoc, List.cons_append, List.nil_append] at whole ⊢
    refine written_of_reads whole ?_
    rw [recast, recast, sameCondition, same]
    rfl
  starts := ⟨'r', _, rfl, rfl⟩

theorem laid_genericFor {declared : List Name} {iterators : List Expression}
    {iteratorDocs : List Doc} (nonempty : declared ≠ [])
    (named : ∀ name ∈ declared, name.IsGrammatical)
    (iteratorsLaid : Expression.AreLaid config iterators iteratorDocs) (some : iterators ≠ [])
    (areValues : Expression.areValues iterators) (laid : AreLaid config body docs)
    (isBlock : Statement.isBlock body) (depth : Nat) :
    (genericFor declared iterators body span).Laid config
      (Doc.ofText "for ".toList ++ Name.docs declared ++ Doc.ofText " in ".toList
        ++ Doc.commaSeparated iteratorDocs ++ Doc.ofText " do".toList
        ++ blockDoc config depth true body docs ++ Doc.ofText "end".toList) where
  cuts := by
    intro rest follows
    have stops : Token.Stops rest := follows
    have namesCut (rest : List Char) : Doc.Cuts config _ (' ' :: rest) _ :=
      Name.cuts_docs nonempty named (Token.endsName_cons rfl rest)
    have inWord (rest : List Char) : (Doc.ofText " in ".toList).Cuts config rest _ :=
      Doc.Cuts.space (Doc.cuts_wordSpace .inWord rest)
    have iteratorsCut (rest : List Char) := iteratorsLaid.cuts_commaSeparated some areValues
      (Token.stops_cons (show Token.isStop ' ' from rfl) rest)
    rw [List.append_assoc _ (blockDoc ..)]
    refine Doc.Cuts.mono (.append
      (.append (.append (.append (.append (Doc.cuts_wordSpace .forWord _) (namesCut _)) (inWord _))
        (iteratorsCut _)) (cuts_do depth body docs _))
      (laid.cuts_closed isBlock depth stops.endsName)) ?_
    rintro _ ⟨_, _, rfl, ⟨_, _, rfl, ⟨_, inner, rfl, ⟨_, _, rfl, ⟨_, before, rfl,
      ⟨keyword, rfl, kind⟩, readNames, namesRead, sameNames⟩, word, rfl, inKind⟩,
      readIterators, iteratorsRead, sameIterators⟩, header, rfl, doKind⟩, tokens, _, rfl,
      ⟨read, reads, same⟩, last, rfl, ends⟩
    have whole := Reads.genericFor kind namesRead inKind iteratorsRead doKind reads ends
    rw [surface]
    simp only [List.append_assoc, List.cons_append, List.nil_append] at whole ⊢
    refine written_of_reads whole ?_
    rw [recast, recast, sameNames, sameIterators, same]
    rfl
  starts := ⟨'f', _, rfl, rfl⟩

/-- The tokens are those of the step of a loop that counts, with the comma in front of it. -/
def WrittenStep (step : Option Expression) (tokens : List Token) : Prop :=
  ∃ read, Expression.ReadsStep true read tokens ∧
    Expression.recastOptional .shown read = Expression.recastOptional .shown step

theorem cuts_step {last : Expression} {step : Option Expression} {lastDoc : Doc}
    {stepDocs : List Doc} (lastLaid : last.Laid config lastDoc)
    (laid : Expression.AreLaid config step.toList stepDocs)
    (plain : ∀ value ∈ step, value.isMethod = false) (stops : Token.Stops rest) :
    (Doc.commaSeparated (lastDoc :: stepDocs)).Cuts config rest
      (Token.Joined last.surface.Written (WrittenStep (Expression.surfaceOptional step))) := by
  cases step with
  | none =>
    cases laid
    rw [Doc.commaSeparated_singleton]
    refine (lastLaid.cuts rest (Expression.follows_of_stops stops)).mono ?_
    intro tokens written
    refine ⟨tokens, [], (List.append_nil _).symm, written, none, .none, ?_⟩
    rw [Expression.surfaceOptional]
  | some step =>
    cases laid with
    | cons stepLaid none =>
      cases none
      have lastCuts (rest : List Char) := lastLaid.cuts (',' :: rest)
        (Expression.follows_of_stops (Token.stops_cons rfl rest))
      have stepCuts := stepLaid.cuts rest (Expression.follows_of_stops stops)
      rw [Doc.commaSeparated_cons, Doc.commaSeparated_singleton]
      refine Doc.Cuts.mono
        (.append (lastCuts _) (.append (Doc.cuts_mark .comma (fun _ => rfl) _) stepCuts.space)) ?_
      rintro _ ⟨tokens, _, rfl, written, _, more, rfl, ⟨mark, rfl, kind⟩, stepWritten⟩
      obtain ⟨read, reads, same⟩ := stepWritten.value (stepLaid.plain (plain step rfl))
      refine ⟨tokens, mark :: more, rfl, written, some read, .some kind reads, ?_⟩
      rw [Expression.surfaceOptional, Expression.recastOptional, Expression.recastOptional, same]

theorem laid_numericFor {counter : Name} {first last : Expression} {step : Option Expression}
    {firstDoc lastDoc : Doc} {stepDocs : List Doc} (named : counter.IsGrammatical)
    (firstLaid : first.Laid config firstDoc) (firstPlain : first.isMethod = false)
    (lastLaid : last.Laid config lastDoc) (lastPlain : last.isMethod = false)
    (stepLaid : Expression.AreLaid config step.toList stepDocs)
    (stepPlain : ∀ value ∈ step, value.isMethod = false) (laid : AreLaid config body docs)
    (isBlock : Statement.isBlock body) (depth : Nat) :
    (numericFor counter first last step body span).Laid config
      (Doc.ofText "for ".toList ++ Doc.ofText counter.text ++ Doc.ofText " = ".toList
        ++ Doc.commaSeparated (firstDoc :: lastDoc :: stepDocs) ++ Doc.ofText " do".toList
        ++ blockDoc config depth true body docs ++ Doc.ofText "end".toList) where
  cuts := by
    intro rest follows
    have stops : Token.Stops rest := follows
    have nameCuts (rest : List Char) : Doc.Cuts config _ (' ' :: rest) _ :=
      Doc.cuts_name named (Token.endsName_cons rfl rest)
    have firstCuts (rest : List Char) := firstLaid.cuts (',' :: rest)
      (Expression.follows_of_stops (Token.stops_cons rfl rest))
    have boundsCut (rest : List Char) := cuts_step lastLaid stepLaid stepPlain
      (Token.stops_cons (show Token.isStop ' ' from rfl) rest)
    rw [List.append_assoc _ (blockDoc ..), Doc.commaSeparated_cons]
    refine Doc.Cuts.mono (.append
      (.append (.append (.append (.append (Doc.cuts_wordSpace .forWord _) (nameCuts _))
        (Field.cuts_equal config _)) (.append (firstCuts _)
          (.append (Doc.cuts_mark .comma (fun _ => rfl) _) (Doc.Cuts.space (boundsCut _)))))
        (cuts_do depth body docs _))
      (laid.cuts_closed isBlock depth stops.endsName)) ?_
    rintro _ ⟨_, _, rfl, ⟨_, _, rfl, ⟨_, _, rfl, ⟨_, _, rfl, ⟨_, _, rfl, ⟨keyword, rfl, kind⟩,
      token, rfl, readName, nameReads, sameName⟩, mark, rfl, equal⟩, before, _, rfl, firstWritten,
      _, _, rfl, ⟨comma, rfl, commaKind⟩, after, further, rfl, lastWritten, readStep, stepReads,
      sameStep⟩, header, rfl, doKind⟩, tokens, _, rfl, ⟨read, reads, same⟩, final, rfl, ends⟩
    obtain ⟨readFirst, firstReads, sameFirst⟩ := firstWritten.value (firstLaid.plain firstPlain)
    obtain ⟨readLast, lastReads, sameLast⟩ := lastWritten.value (lastLaid.plain lastPlain)
    have whole := Reads.numericFor kind nameReads equal firstReads commaKind lastReads stepReads
      doKind reads ends
    rw [surface]
    simp only [List.append_assoc, List.cons_append, List.nil_append] at whole ⊢
    refine written_of_reads whole ?_
    rw [recast, recast, sameName, sameFirst, sameLast, sameStep, same]
    rfl
  starts := ⟨'f', _, rfl, rfl⟩

theorem laid_function {name : FunctionName} {isLocal : Bool} {parameters : List Parameter}
    (named : name.IsGrammatical)
    (single : isLocal → name.path.length = 1 ∧ name.method = none)
    (grammatical : Parameter.AreGrammatical parameters) (laid : AreLaid config body docs)
    (isBlock : Statement.isBlock body) (depth : Nat) :
    (function ⟨some name, isLocal⟩ parameters body span).Laid config
      (FunctionHead.doc ⟨some name, isLocal⟩ ++ Parameter.docs parameters
        ++ blockDoc config depth true body docs ++ Doc.ofText "end".toList) where
  cuts := by
    intro rest follows
    have stops : Token.Stops rest := follows
    have bodyCuts := laid.cuts_function isBlock grammatical depth stops.endsName
    have nameCuts (rest : List Char) : Doc.Cuts config _ ('(' :: rest) _ :=
      FunctionName.cuts_text named (Token.endsName_cons rfl rest)
    rw [FunctionHead.doc_named, List.append_assoc _ (blockDoc ..),
      List.append_assoc _ (Parameter.docs parameters)]
    cases isLocal with
    | false =>
      refine Doc.Cuts.mono
        (.append (.append (Doc.cuts_wordSpace .functionWord _) (nameCuts _)) bodyCuts) ?_
      rintro _ ⟨_, tokens, rfl,
        ⟨_, before, rfl, ⟨keyword, rfl, kind⟩, readName, nameReads, sameName⟩,
        readParameters, readBody, reads, sameParameters, same⟩
      rw [surface]
      refine written_of_reads (.function kind nameReads reads) ?_
      rw [recast, recast, FunctionHead.recast, FunctionHead.recast, Option.map_some,
        Option.map_some, sameName, sameParameters, same]
      rfl
    | true =>
      obtain ⟨path, method, nameSpan⟩ := name
      obtain ⟨alone, rfl⟩ := single rfl
      obtain ⟨identifier, rfl⟩ := List.length_eq_one_iff.1 alone
      have text : FunctionName.text ⟨[identifier], none, nameSpan⟩ = identifier.text := by
        have inner : ['.'].intercalate [identifier.text] = identifier.text := List.append_nil _
        rw [FunctionName.text, List.map_singleton, inner]
        exact List.append_nil _
      have identifierCuts (rest : List Char) : Doc.Cuts config _ ('(' :: rest) _ :=
        Doc.cuts_name (named.2.1 identifier List.mem_cons_self) (Token.endsName_cons rfl rest)
      have words (rest : List Char) : (Doc.ofText "local function ".toList).Cuts config rest _ :=
        .append (Doc.cuts_wordSpace .localWord _) (Doc.cuts_wordSpace .functionWord rest)
      rw [text, if_pos rfl]
      refine Doc.Cuts.mono (.append (.append (words _) (identifierCuts _)) bodyCuts) ?_
      rintro _ ⟨_, tokens, rfl, ⟨_, _, rfl, ⟨_, _, rfl, ⟨keyword, rfl, kind⟩, word, rfl,
        functionKind⟩, token, rfl, read, nameReads, sameName⟩, readParameters, readBody, reads,
        sameParameters, same⟩
      rw [surface]
      refine written_of_reads (.localFunction kind functionKind nameReads reads) ?_
      rw [recast, recast, sameParameters, same, FunctionHead.recast, FunctionHead.recast,
        Option.map_some, Option.map_some, FunctionName.recast, FunctionName.recast,
        List.map_singleton, List.map_singleton, sameName]
      rfl
  starts := by
    cases isLocal with
    | false => exact ⟨'f', _, rfl, rfl⟩
    | true => exact ⟨'l', _, rfl, rfl⟩

end Statement

/-! ### Clauses -/

namespace Clause

/-- The tokens are those of the clause, which is not the first one. -/
def WrittenFurther (clauses : List Clause) (tokens : List Token) : Prop :=
  ∃ read, ReadsFurther true read tokens ∧ recastAll .shown read = recastAll .shown clauses

/-- The tokens are those of a clause with a condition. -/
def WrittenGuarded (word : ClauseWord) (clause : Clause) (tokens : List Token) : Prop :=
  ∃ read, ReadsGuarded true word read tokens ∧ read.recast .shown = clause.recast .shown

/-- The tokens are those of a clause without a condition. -/
def WrittenOtherwise (body : List Statement) (tokens : List Token) : Prop :=
  ∃ keyword more, tokens = keyword :: more ∧ keyword.kind = .keyword .elseWord ∧
    Statement.WrittenBody body more

/-- The document is a layout of the clause, which is cut into the tokens of its surface. If another
clause follows, the line has to end. -/
structure Laid (config : Config) (isLast : Bool) (clause : Clause) (doc : Doc) : Prop where
  cuts : ∀ rest, (isLast = false → LineEnds rest) → doc.Cuts config rest
    (match clause with
    | .guarded word _ _ _ => WrittenGuarded word clause.surface
    | .otherwise body _ => WrittenOtherwise (Statement.surfaces body))
  starts : ∃ c more, doc = .char c :: more ∧ Token.isSpace c = false

/-- The documents are layouts of the clauses. -/
inductive AreLaid (config : Config) : List Clause → List Doc → Prop
  | nil : AreLaid config [] []
  | cons {clause clauses doc docs} :
    clause.Laid config clauses.isEmpty doc → AreLaid config clauses docs →
      AreLaid config (clause :: clauses) (doc :: docs)

variable {body : List Statement} {docs : List Doc} {span : Span}

/-- The word `then` in front of a block. -/
theorem cuts_then (depth : Nat) (body : List Statement) (docs : List Doc) {isLast : Bool}
    (ends : isLast = false → LineEnds rest) :
    (Doc.ofText " then".toList).Cuts config
      ((Statement.blockDoc config depth isLast body docs).written config ++ rest)
      (Doc.One (.keyword .thenWord)) :=
  Doc.Cuts.space (Doc.cuts_word .thenWord (Statement.stops_blockDoc depth body docs ends).endsName)

theorem laid_guarded {word : ClauseWord} {condition : Expression} {conditionDoc : Doc}
    (conditionLaid : condition.Laid config conditionDoc) (plain : condition.isMethod = false)
    (laid : Statement.AreLaid config body docs) (isBlock : Statement.isBlock body) (depth : Nat)
    (isLast : Bool) :
    (guarded word condition body span).Laid config isLast
      (Doc.ofText (match word with
          | .ifWord => "if ".toList
          | .elseifWord => "elseif ".toList)
        ++ conditionDoc ++ Doc.ofText " then".toList
        ++ Statement.blockDoc config depth isLast body docs) where
  starts := by
    cases word with
    | ifWord => exact ⟨'i', _, rfl, rfl⟩
    | elseifWord => exact ⟨'e', _, rfl, rfl⟩
  cuts := by
    intro rest ends
    have opening (rest : List Char) : (Doc.ofText (match word with
        | .ifWord => "if ".toList
        | .elseifWord => "elseif ".toList)).Cuts config rest (Doc.One (.keyword word.keyword)) := by
      cases word with
      | ifWord => exact Doc.cuts_wordSpace .ifWord rest
      | elseifWord => exact Doc.cuts_wordSpace .elseifWord rest
    have conditionCuts (rest : List Char) := conditionLaid.cuts (' ' :: rest)
      (Expression.follows_of_stops (Token.stops_cons rfl rest))
    refine Doc.Cuts.mono (.append
      (.append (.append (opening _) (conditionCuts _)) (cuts_then depth body docs ends))
      (laid.cuts_blockDoc isBlock depth ends)) ?_
    rintro _ ⟨_, tokens, rfl, ⟨_, _, rfl, ⟨_, inner, rfl, ⟨keyword, rfl, kind⟩, conditionWritten⟩,
      mark, rfl, thenKind⟩, read, reads, same⟩
    obtain ⟨readCondition, conditionReads, sameCondition⟩ :=
      conditionWritten.value (conditionLaid.plain plain)
    have whole := ReadsGuarded.intro kind conditionReads thenKind reads
    rw [List.append_assoc, surface]
    refine ⟨_, whole, ?_⟩
    rw [recast, recast, sameCondition, same]
    rfl

theorem laid_otherwise (laid : Statement.AreLaid config body docs)
    (isBlock : Statement.isBlock body) (depth : Nat) (isLast : Bool) :
    (otherwise body span).Laid config isLast
      (Doc.ofText "else".toList ++ Statement.blockDoc config depth isLast body docs) where
  starts := ⟨'e', _, rfl, rfl⟩
  cuts := by
    intro rest ends
    refine Doc.Cuts.mono (.append
      (Doc.cuts_word .elseWord (Statement.stops_blockDoc depth body docs ends).endsName)
      (laid.cuts_blockDoc isBlock depth ends)) ?_
    rintro _ ⟨_, tokens, rfl, ⟨keyword, rfl, kind⟩, written⟩
    exact ⟨keyword, tokens, rfl, kind, written⟩

theorem intercalate_cons (depth : Nat) (first second : Doc) (docs : List Doc) :
    [Piece.lineBreak depth].intercalate (first :: second :: docs) =
      first ++ .lineBreak depth :: [Piece.lineBreak depth].intercalate (second :: docs) := by
  rw [List.intercalate, List.intersperse_cons_cons, List.flatten_cons, List.flatten_cons]
  rfl

theorem intercalate_singleton (depth : Nat) (doc : Doc) :
    [Piece.lineBreak depth].intercalate [doc] = doc :=
  List.append_nil doc

theorem writtenFurther_nil : WrittenFurther (surfaces []) [] := by
  rw [surfaces]
  exact ⟨[], .nil, rfl⟩

theorem writtenFurther_cons {clause : Clause} {clauses : List Clause} {tokens more : List Token}
    (written : WrittenGuarded .elseifWord clause.surface tokens)
    (further : WrittenFurther (surfaces clauses) more) :
    WrittenFurther (surfaces (clause :: clauses)) (tokens ++ more) := by
  obtain ⟨read, reads, same⟩ := written
  obtain ⟨others, othersRead, sameOthers⟩ := further
  refine ⟨read :: others, .cons reads othersRead, ?_⟩
  rw [surfaces, recastAll, recastAll, same, sameOthers]

/-- The clauses behind the first one, below each other. -/
theorem AreLaid.cuts_further {clauses : List Clause} {docs : List Doc}
    (laid : AreLaid config clauses docs) (further : areFurther clauses) (depth : Nat)
    (rest : List Char) :
    Doc.Cuts config ([Piece.lineBreak depth].intercalate docs) rest
      (WrittenFurther (surfaces clauses)) := by
  induction laid with
  | nil =>
    refine Doc.Cuts.nil.mono ?_
    rintro _ rfl
    exact writtenFurther_nil
  | @cons clause clauses doc docs first others inductionHypothesis =>
    match clause, clauses, further, others with
    | .otherwise body span, [], _, .nil =>
      rw [intercalate_singleton]
      refine (first.cuts rest nofun).mono ?_
      rintro _ ⟨keyword, more, rfl, kind, read, reads, same⟩
      refine ⟨_, .otherwise kind reads, ?_⟩
      rw [surfaces, surfaces, surface, recastAll, recastAll]
      show [otherwise (Statement.recastAll .shown read) default] =
        [otherwise (Statement.recastAll .shown (Statement.surfaces body)) default]
      rw [same]
    | .guarded .elseifWord condition body span, [], _, .nil =>
      rw [intercalate_singleton]
      refine (first.cuts rest nofun).mono ?_
      intro tokens written
      rw [← List.append_nil tokens]
      exact writtenFurther_cons written writtenFurther_nil
    | .guarded .elseifWord condition body span, second :: clauses, further,
        .cons secondLaid others =>
      have rest := inductionHypothesis further
      rw [intercalate_cons]
      refine Doc.Cuts.mono
        (.append (first.cuts _ fun _ => Doc.lineEnds_lineBreak depth _ _) (rest.lineBreak depth)) ?_
      rintro _ ⟨tokens, more, rfl, written, furtherWritten⟩
      exact writtenFurther_cons written furtherWritten

end Clause

namespace Statement

theorem written_ifElse {clause : Clause} {clauses : List Clause} {span : Span}
    {tokens more : List Token} {last : Token}
    (written : Clause.WrittenGuarded .ifWord clause.surface tokens)
    (further : Clause.WrittenFurther (Clause.surfaces clauses) more)
    (ends : last.kind = .keyword .endWord) :
    (ifElse (clause :: clauses) span).surface.Written (tokens ++ more ++ [last]) := by
  obtain ⟨read, reads, same⟩ := written
  obtain ⟨others, othersRead, sameOthers⟩ := further
  rw [surface]
  refine written_of_reads (.ifElse reads othersRead ends) ?_
  rw [Clause.surfaces, recast, recast, Clause.recastAll, Clause.recastAll, same, sameOthers]
  rfl

theorem laid_ifElse {clauses : List Clause} {docs : List Doc} {span : Span}
    (laid : Clause.AreLaid config clauses docs) (grammatical : Clause.areGrammatical clauses)
    (depth : Nat) : (ifElse clauses span).Laid config
      ([Piece.lineBreak depth].intercalate docs ++ Doc.ofText "end".toList) where
  cuts := by
    intro rest follows
    have stops : Token.Stops rest := follows
    have ended : Doc.Cuts config _ rest (Doc.One (.keyword .endWord)) :=
      Doc.cuts_word .endWord stops.endsName
    match clauses, grammatical, laid with
    | .guarded .ifWord condition body span :: [], _, .cons first .nil =>
      rw [Clause.intercalate_singleton]
      refine Doc.Cuts.mono (.append (first.cuts _ nofun) ended) ?_
      rintro _ ⟨tokens, _, rfl, written, last, rfl, ends⟩
      have whole : (ifElse _ span).surface.Written _ :=
        written_ifElse written Clause.writtenFurther_nil ends
      rwa [List.append_nil] at whole
    | .guarded .ifWord condition body span :: second :: clauses, further,
        .cons first (.cons secondLaid others) =>
      have rest := (Clause.AreLaid.cons secondLaid others).cuts_further further depth
      rw [Clause.intercalate_cons]
      refine Doc.Cuts.mono
        (.append (.append (first.cuts _ fun _ => Doc.lineEnds_lineBreak depth _ _)
        ((rest _).lineBreak depth)) ended) ?_
      rintro _ ⟨_, _, rfl, ⟨tokens, more, rfl, written, furtherWritten⟩, last, rfl, ends⟩
      exact written_ifElse written furtherWritten ends
  starts := by
    cases laid with
    | nil => cases grammatical
    | cons first others =>
      obtain ⟨c, more, rfl, solid⟩ := first.starts
      cases others with
      | nil =>
        rw [Clause.intercalate_singleton]
        exact ⟨c, _, rfl, solid⟩
      | cons =>
        rw [Clause.intercalate_cons]
        exact ⟨c, _, rfl, solid⟩

end Statement

end LuaStyle
