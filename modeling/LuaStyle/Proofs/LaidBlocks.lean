/-
This file proves that laid-out tables and blocks are cut into the tokens of their surfaces.

Inside tables and blocks stand comments, and a comment has to be the last on its line; so what may
follow an item depends on whether it is one. A block is put together from its end. There a statement
that starts with a parenthesis gets its semicolon, and since nothing else starts with one, the
semicolons are exactly those of a strict reading.
-/

import LuaStyle.Proofs.LaidExpressions

namespace LuaStyle

variable {config : Config} {rest : List Char}

/-! ### Names and parameters -/

/-- Names laid out with commas are cut into the names and the commas. -/
theorem Name.cuts_docs {names : List Name} (nonempty : names ≠ [])
    (named : ∀ name ∈ names, name.IsGrammatical) (ends : Token.EndsName rest) :
    (Name.docs names).Cuts config rest (Name.WrittenAll (.symbol .comma) names) := by
  unfold Name.docs
  induction names with
  | nil => exact absurd rfl nonempty
  | cons name names inductionHypothesis =>
    obtain ⟨first, others⟩ := List.forall_mem_cons.1 named
    cases names with
    | nil =>
      rw [List.map_singleton, Doc.commaSeparated_singleton]
      refine (Doc.cuts_name first ends).mono ?_
      rintro _ ⟨token, rfl, written⟩
      exact .single written
    | cons second names =>
      have further := inductionHypothesis (List.cons_ne_nil _ _) others
      have comma (rest : List Char) : Doc.Cuts config _ (',' :: rest) _ :=
        Doc.cuts_name first (Token.endsName_cons rfl rest)
      rw [List.map_cons, List.map_cons, Doc.commaSeparated_cons]
      refine Doc.Cuts.mono
        (.append (comma _) (.append (Doc.cuts_mark .comma (fun _ => rfl) _) further.space)) ?_
      rintro _ ⟨_, _, rfl, ⟨token, rfl, written⟩, _, after, rfl, ⟨mark, rfl, kind⟩, more⟩
      exact .cons written kind more

/-- A path of two names or more begins with a name and a dot. -/
theorem FunctionName.intercalate_path (first second : Name) (path : List Name) :
    ['.'].intercalate ((first :: second :: path).map Name.text) =
      first.text ++ (Token.Symbol.dot.text ++
        ['.'].intercalate ((second :: path).map Name.text)) := by
  rw [List.map_cons, List.map_cons, List.intercalate, List.intersperse_cons_cons,
    List.flatten_cons, List.flatten_cons]
  rfl

/-- The names of a path, with dots between them, are cut into names and dots. -/
theorem FunctionName.cuts_path {path : List Name} (nonempty : path ≠ [])
    (named : ∀ name ∈ path, name.IsGrammatical) (ends : Token.EndsName rest) :
    Token.Cuts (['.'].intercalate (path.map Name.text)) rest
      (Name.WrittenAll (.symbol .dot) path) := by
  have cutsName {name : Name} {rest : List Char} (first : name.IsGrammatical)
      (ends : Token.EndsName rest) : Token.Cuts name.text rest
        fun tokens => ∃ token, tokens = [token] ∧ name.Written token := by
    refine (Token.cuts_name first ends).mono ?_
    rintro _ ⟨token, rfl, kind, text⟩
    exact ⟨token, rfl, Name.written_of_text kind text⟩
  induction path with
  | nil => exact absurd rfl nonempty
  | cons name path inductionHypothesis =>
    obtain ⟨first, others⟩ := List.forall_mem_cons.1 named
    cases path with
    | nil =>
      rw [List.map_singleton]
      have single : ['.'].intercalate [name.text] = name.text := List.append_nil _
      rw [single]
      refine (cutsName first ends).mono ?_
      rintro _ ⟨token, rfl, written⟩
      exact .single written
    | cons second path =>
      have further := inductionHypothesis (List.cons_ne_nil _ _) others
      have point (rest : List Char) := cutsName first
        (Token.endsName_cons (show Token.isNamePart '.' = false from rfl) rest)
      have start : ∃ c more, ['.'].intercalate ((second :: path).map Name.text) = c :: more ∧
          Token.isNameStart c := by
        obtain ⟨c, more, same, start, -⟩ := (List.forall_mem_cons.1 others).1
        rw [List.map_cons, same]
        cases path.map Name.text with
        | nil => exact ⟨c, more ++ [], rfl, start⟩
        | cons third texts => exact ⟨c, _, rfl, start⟩
      obtain ⟨c, more, same, start⟩ := start
      rw [FunctionName.intercalate_path]
      refine Token.Cuts.mono
        (.append (point _) (.append (Token.cuts_symbol .dot ?_) further)) ?_
      · rw [same]
        exact Selector.endsIn_symbol .dot start _
      · rintro _ ⟨_, _, rfl, ⟨token, rfl, written⟩, _, after, rfl, ⟨mark, rfl, kind, -⟩, more⟩
        exact .cons written kind more

/-- A function without a name is laid out as the word `function` alone. -/
theorem FunctionHead.doc_anonymous : FunctionHead.doc .anonymous = Doc.ofText "function".toList :=
  rfl

/-- In front of the parameters of a declared function there are words and its name. -/
theorem FunctionHead.doc_named (name : FunctionName) (isLocal : Bool) :
    FunctionHead.doc ⟨some name, isLocal⟩ =
      Doc.ofText (if isLocal then "local function ".toList else "function ".toList)
        ++ Doc.ofText name.text := by
  cases isLocal <;> rfl

theorem FunctionName.isLine_text {name : FunctionName} (named : name.IsGrammatical) :
    Comment.IsLine name.text := by
  obtain ⟨path, method, span⟩ := name
  obtain ⟨nonempty, pathNamed, methodNamed⟩ := named
  have isLine : Comment.IsLine (['.'].intercalate (path.map Name.text)) := by
    clear methodNamed
    induction path with
    | nil => exact absurd rfl nonempty
    | cons first path inductionHypothesis =>
      obtain ⟨firstNamed, othersNamed⟩ := List.forall_mem_cons.1 pathNamed
      have isLine := Name.isLine_text firstNamed
      cases path with
      | nil =>
        have single : ['.'].intercalate [first.text] = first.text := List.append_nil _
        rwa [List.map_singleton, single]
      | cons second path =>
        rw [FunctionName.intercalate_path]
        have further := inductionHypothesis (List.cons_ne_nil _ _) othersNamed
        exact (further.prepend (Token.Symbol.isLine_text .dot).opens).prepend isLine.opens
  cases method with
  | none =>
    show Comment.IsLine (_ ++ [])
    rwa [List.append_nil]
  | some method =>
    have further := Name.isLine_text (methodNamed method rfl)
    exact isLine.append (further.prepend (Token.Symbol.isLine_text .colon).opens).closes

/-- The name of a function is cut into the tokens it is written with. -/
theorem FunctionName.cuts_text {name : FunctionName} (named : name.IsGrammatical)
    (ends : Token.EndsName rest) :
    (Doc.ofText name.text).Cuts config rest name.Written := by
  rw [Doc.Cuts, Doc.written_ofText config (FunctionName.isLine_text named).noLineFeed]
  obtain ⟨path, method, span⟩ := name
  obtain ⟨nonempty, pathNamed, methodNamed⟩ := named
  cases method with
  | none =>
    have same : FunctionName.text ⟨path, none, span⟩ = ['.'].intercalate (path.map Name.text) :=
      List.append_nil _
    rw [same]
    refine (FunctionName.cuts_path nonempty pathNamed ends).mono ?_
    rintro tokens ⟨read, reads, sameRead⟩
    exact ⟨⟨read, none, Token.extent tokens⟩, .plain reads,
      congrArg (fun path => FunctionName.mk path none default) sameRead⟩
  | some method =>
    have same : FunctionName.text ⟨path, some method, span⟩ =
        ['.'].intercalate (path.map Name.text) ++ (Token.Symbol.colon.text ++ method.text) := rfl
    have methodGrammatical : method.IsGrammatical := methodNamed method rfl
    rw [same]
    have colon : Token.Symbol.colon.EndsIn (method.text ++ rest) := by
      obtain ⟨c, more, sameText, start, -⟩ := methodGrammatical
      rw [sameText]
      exact Selector.endsIn_symbol .colon start _
    refine Token.Cuts.mono
      (.append (FunctionName.cuts_path nonempty pathNamed (Token.endsName_cons rfl _))
        (.append (Token.cuts_symbol .colon colon) (Token.cuts_name methodGrammatical ends))) ?_
    rintro _ ⟨tokens, _, rfl, ⟨read, reads, sameRead⟩, _, _, rfl, ⟨mark, rfl, kind, -⟩, token, rfl,
      nameKind, text⟩
    obtain ⟨readName, nameReads, sameName⟩ := Name.written_of_text nameKind text
    refine ⟨_, .method reads kind nameReads, ?_⟩
    rw [FunctionName.recast, FunctionName.recast, sameRead, Option.map_some, sameName]
    rfl

/-- A parameter in its place among the others. -/
theorem Parameter.cuts_commaSeparated {parameters : List Parameter}
    (grammatical : ∀ parameter ∈ parameters, parameter.IsGrammatical)
    (ordered : Parameter.areOrdered parameters) (ends : Token.EndsName rest) :
    (Doc.commaSeparated (parameters.map Parameter.doc)).Cuts config rest
      (Parameter.WrittenAll parameters) := by
  induction parameters with
  | nil =>
    refine Doc.Cuts.nil.mono ?_
    rintro _ rfl
    exact ⟨[], .nil, rfl⟩
  | cons parameter parameters inductionHypothesis =>
    obtain ⟨first, others⟩ := List.forall_mem_cons.1 grammatical
    cases parameters with
    | nil =>
      rw [List.map_singleton, Doc.commaSeparated_singleton]
      cases parameter with
      | name identifier =>
        refine (Doc.cuts_name first ends).mono ?_
        rintro _ ⟨token, rfl, read, reads, same⟩
        refine ⟨[.name read], .single reads, ?_⟩
        rw [List.map_singleton, List.map_singleton, Parameter.recast, Parameter.recast, same]
      | vararg =>
        refine (Doc.cuts_mark .dotDotDot (fun _ => rfl) rest).mono ?_
        rintro _ ⟨token, rfl, kind⟩
        exact ⟨[.vararg token.span], .vararg kind, rfl⟩
    | cons second parameters =>
      cases parameter with
      | vararg => cases ordered
      | name identifier =>
        have further := inductionHypothesis others ordered
        have comma (rest : List Char) : Doc.Cuts config _ (',' :: rest) _ :=
          Doc.cuts_name first (Token.endsName_cons rfl rest)
        rw [List.map_cons, List.map_cons, Doc.commaSeparated_cons]
        refine Doc.Cuts.mono
          (.append (comma _) (.append (Doc.cuts_mark .comma (fun _ => rfl) _) further.space)) ?_
        rintro _ ⟨_, _, rfl, ⟨token, rfl, read, reads, same⟩, _, after, rfl, ⟨mark, rfl, kind⟩,
          more, moreReads, moreSame⟩
        have nonempty : more ≠ [] := by
          rintro rfl
          cases moreSame
        refine ⟨.name read :: more, .cons reads kind nonempty moreReads, ?_⟩
        rw [List.map_cons, List.map_cons, moreSame, Parameter.recast, Parameter.recast, same]

/-! ### Tables -/

/-- The tokens are those of the field. -/
def Field.Written (field : Field) (tokens : List Token) : Prop :=
  ∃ read : Field, read.Reads true tokens ∧ read.recast .shown = field.recast .shown

/-- The document is a layout of the field, which is cut into the tokens of its surface. -/
def Field.Laid (config : Config) : Field → Doc → Prop
  | .comment remark, doc => ∀ rest, LineEnds rest → doc.Cuts config rest remark.OneToken
  | field, doc => ∀ rest, Token.Stops rest → doc.Cuts config rest field.surface.Written

/-- The documents are layouts of the fields. -/
abbrev Field.AreLaid (config : Config) (fields : List Field) (docs : List Doc) : Prop :=
  List.Forall₂ (Field.Laid config) fields docs

/-- A field that is not a comment is cut into the tokens of its surface. -/
theorem Field.Laid.cuts {field : Field} {doc : Doc} (laid : field.Laid config doc)
    (value : field.isComment = false) {rest : List Char} (stops : Token.Stops rest) :
    doc.Cuts config rest field.surface.Written := by
  cases field with
  | comment => cases value
  | _ => exact laid rest stops

namespace Field

/-- An equals sign between two spaces. -/
theorem cuts_equal (config : Config) (rest : List Char) :
    (Doc.ofText " = ".toList).Cuts config rest (Doc.One (.symbol .equal)) :=
  Doc.Cuts.space (Doc.Cuts.thenSpace
    (Doc.cuts_symbol .equal (Token.Symbol.endsIn_cons rfl rest)))

/-- A key in brackets, the sign and the value lay out a field, as they do alone. -/
theorem laid_keyed {key value : Expression} {span : Span} {keyDoc valueDoc : Doc}
    (keyLaid : key.Laid config keyDoc) (keyPlain : key.isMethod = false)
    (valueLaid : value.Laid config valueDoc) (valuePlain : value.isMethod = false) :
    (keyed key value span).Laid config
      (.char '[' :: keyDoc ++ Doc.ofText "] = ".toList ++ valueDoc) := by
  intro rest stops
  have keyCuts (rest : List Char) := keyLaid.cuts (']' :: rest)
    (Expression.follows_of_stops (Token.stops_cons rfl rest))
  have valueCuts := valueLaid.cuts rest (Expression.follows_of_stops stops)
  have closed (rest : List Char) := Doc.Cuts.append
    (Doc.cuts_mark .rightSquare (fun _ => rfl) _) (cuts_equal config rest)
  refine Doc.Cuts.mono
    (.append (.append (.append (keyLaid.cuts_leftSquare _) (keyCuts _)) (closed _)) valueCuts) ?_
  rintro _ ⟨_, tokens, rfl, ⟨_, _, rfl, ⟨_, inner, rfl, ⟨opening, rfl, opens⟩, keyWritten⟩,
    _, _, rfl, ⟨closing, rfl, closes⟩, mark, rfl, kind⟩, valueWritten⟩
  obtain ⟨readKey, keyReads, sameKey⟩ := keyWritten.value (keyLaid.plain keyPlain)
  obtain ⟨readValue, valueReads, sameValue⟩ := valueWritten.value (valueLaid.plain valuePlain)
  have reads := Field.Reads.keyed opens keyReads closes kind valueReads
  rw [List.append_assoc]
  refine ⟨_, reads, ?_⟩
  rw [surface, recast, recast, sameKey, sameValue]
  rfl

/-- A name, the sign and the value lay out a field. -/
theorem laid_named {name : Name} {value : Expression} {span : Span} {valueDoc : Doc}
    (nameGrammatical : name.IsGrammatical) (valueLaid : value.Laid config valueDoc)
    (valuePlain : value.isMethod = false) :
    (named name value span).Laid config
      (Doc.ofText name.text ++ Doc.ofText " = ".toList ++ valueDoc) := by
  intro rest stops
  have nameCuts (rest : List Char) : Doc.Cuts config _ (' ' :: rest) _ :=
    Doc.cuts_name nameGrammatical (Token.endsName_cons rfl rest)
  have valueCuts := valueLaid.cuts rest (Expression.follows_of_stops stops)
  refine Doc.Cuts.mono (.append (.append (nameCuts _) (cuts_equal config _)) valueCuts) ?_
  rintro _ ⟨_, tokens, rfl, ⟨_, _, rfl, ⟨token, rfl, readName, nameReads, sameName⟩, mark, rfl,
    kind⟩, valueWritten⟩
  obtain ⟨readValue, valueReads, sameValue⟩ := valueWritten.value (valueLaid.plain valuePlain)
  refine ⟨_, Field.Reads.named nameReads kind valueReads, ?_⟩
  rw [surface, recast, recast, sameName, sameValue]
  rfl

/-- A field without a key is laid out as its value. -/
theorem laid_positional {value : Expression} {valueDoc : Doc}
    (valueLaid : value.Laid config valueDoc) (valuePlain : value.isMethod = false) :
    (positional value).Laid config valueDoc := by
  intro rest stops
  refine (valueLaid.cuts rest (Expression.follows_of_stops stops)).mono ?_
  intro tokens written
  obtain ⟨read, reads, same⟩ := written.value (valueLaid.plain valuePlain)
  refine ⟨.positional read, .positional reads, ?_⟩
  rw [surface, recast, recast, same]

theorem isComment_surface (field : Field) : field.surface.isComment = field.isComment := by
  cases field <;> rw [surface] <;> rfl

theorem all_isComment_surfaces (fields : List Field) :
    (surfaces fields).all isComment = fields.all isComment := by
  induction fields with
  | nil =>
    rw [surfaces]
  | cons field rest inductionHypothesis =>
    rw [surfaces, List.all_cons, List.all_cons, isComment_surface, inductionHypothesis]

theorem all_isComment_recastAll (recasting : Recasting) (fields : List Field) :
    (recastAll recasting fields).all isComment = fields.all isComment := by
  induction fields with
  | nil => rfl
  | cons field rest inductionHypothesis =>
    rw [recastAll, List.all_append, List.all_cons, inductionHypothesis]
    congr 1
    cases field with
    | comment remark =>
      rw [recast]
      cases recasting.comment remark <;> rfl
    | _ => rfl

/-- Fields that are all comments are read back as comments. -/
theorem all_isComment_of_recastAll_eq {fields read : List Field}
    (same : recastAll .shown read = recastAll .shown (surfaces fields))
    (comments : fields.all isComment) : read.all isComment := by
  rw [← all_isComment_recastAll .shown, same, all_isComment_recastAll, all_isComment_surfaces,
    comments]

theorem writtenAll_nil : WrittenAll (surfaces []) [] := by
  rw [surfaces]
  exact ⟨[], .nil, rfl⟩

/-- The last value of a table, and the comments behind it. -/
theorem writtenAll_last {field : Field} {fields : List Field} {tokens more : List Token}
    (written : field.surface.Written tokens) (comments : fields.all isComment)
    (others : WrittenAll (surfaces fields) more) :
    WrittenAll (surfaces (field :: fields)) (tokens ++ more) := by
  obtain ⟨read, reads, same⟩ := written
  obtain ⟨further, furtherReads, sameFurther⟩ := others
  refine ⟨read :: further,
    .last reads (all_isComment_of_recastAll_eq sameFurther comments) furtherReads, ?_⟩
  rw [surfaces, recastAll, recastAll, same, sameFurther]

/-- A value of a table that a separator stands behind. -/
theorem writtenAll_cons {field : Field} {fields : List Field} {tokens more : List Token}
    {mark : Token} (written : field.surface.Written tokens) (kind : mark.kind = .symbol .comma)
    (others : WrittenAll (surfaces fields) more) :
    WrittenAll (surfaces (field :: fields)) (tokens ++ mark :: more) := by
  obtain ⟨read, reads, same⟩ := written
  obtain ⟨further, furtherReads, sameFurther⟩ := others
  refine ⟨read :: further, .cons reads (.inl kind) furtherReads, ?_⟩
  rw [surfaces, recastAll, recastAll, same, sameFurther]

/-- A comment in front of fields is written with one token more. -/
theorem writtenAll_comment {remark : Comment} {fields : List Field} {tokens more : List Token}
    (written : remark.OneToken tokens) (others : WrittenAll (surfaces fields) more) :
    WrittenAll (surfaces (comment remark :: fields)) (tokens ++ more) := by
  obtain ⟨token, rfl, kind, same⟩ := written
  obtain ⟨further, furtherReads, sameFurther⟩ := others
  refine ⟨comment (Comment.ofToken token) :: further, .comment kind furtherReads, ?_⟩
  rw [surfaces, surface, recastAll, recastAll, sameFurther]
  show [comment (Comment.ofToken token).shown] ++ _ = [comment remark.shown] ++ _
  rw [same]

/-- Values with commas between them. -/
theorem AreLaid.cuts_commaSeparated {fields : List Field} {docs : List Doc}
    (laid : AreLaid config fields docs) (nonempty : fields ≠ [])
    (values : fields.any isComment = false) {rest : List Char} (stops : Token.Stops rest) :
    (Doc.commaSeparated docs).Cuts config rest (WrittenAll (surfaces fields)) := by
  induction laid with
  | nil => exact absurd rfl nonempty
  | @cons field doc fields docs first others inductionHypothesis =>
    rw [List.any_cons, Bool.or_eq_false_iff] at values
    cases others with
    | nil =>
      rw [Doc.commaSeparated_singleton]
      refine (first.cuts values.1 stops).mono ?_
      intro tokens written
      rw [← List.append_nil tokens]
      exact writtenAll_last written rfl writtenAll_nil
    | cons second others =>
      have further := inductionHypothesis (List.cons_ne_nil _ _) values.2
      have comma (rest : List Char) : Doc.Cuts config _ (',' :: rest) _ :=
        first.cuts values.1 (Token.stops_cons rfl rest)
      rw [Doc.commaSeparated_cons]
      refine Doc.Cuts.mono
        (.append (comma _) (.append (Doc.cuts_mark .comma (fun _ => rfl) _) further.space)) ?_
      rintro _ ⟨before, _, rfl, written, _, after, rfl, ⟨mark, rfl, kind⟩, more⟩
      exact writtenAll_cons written kind more

/-- A list of fields, if there are any, starts with a line break, which closes a comment. -/
theorem lineEnds_stack (depth : Nat) (fields : List Field) (docs : List Doc)
    (ends : LineEnds rest) : LineEnds ((stack depth fields docs).written config ++ rest) := by
  unfold stack
  split
  · exact Doc.lineEnds_lineBreak depth _ rest
  · exact ends

/-- Fields on lines of their own. -/
theorem AreLaid.cuts_stack {fields : List Field} {docs : List Doc}
    (laid : AreLaid config fields docs) (depth : Nat) (ends : LineEnds rest) :
    (stack depth fields docs).Cuts config rest (WrittenAll (surfaces fields)) := by
  induction laid with
  | nil =>
    refine Doc.Cuts.nil.mono ?_
    rintro _ rfl
    exact writtenAll_nil
  | @cons field doc fields docs first others further =>
    have endsHere : LineEnds ((stack depth fields docs).written config ++ rest) :=
      lineEnds_stack depth fields docs ends
    rw [stack, List.append_assoc, List.cons_append]
    refine Doc.Cuts.lineBreak depth ?_
    cases isComment : field.isComment with
    | true =>
      cases field with
      | comment remark =>
        refine Doc.Cuts.mono (.append (first _ endsHere) further) ?_
        rintro _ ⟨_, _, rfl, written, more⟩
        exact writtenAll_comment written more
      | _ => cases isComment
    | false =>
      rw [Bool.not_false, Bool.true_and]
      cases behind : fields.any (!·.isComment) with
      | true =>
        rw [if_pos rfl]
        have comma (rest : List Char) : Doc.Cuts config _ (',' :: rest) _ :=
          first.cuts isComment (Token.stops_cons rfl rest)
        refine Doc.Cuts.mono
          (.append (comma _) (.append (Doc.cuts_mark .comma (fun _ => rfl) _) further)) ?_
        rintro _ ⟨_, _, rfl, written, _, _, rfl, ⟨mark, rfl, kind⟩, more⟩
        exact writtenAll_cons written kind more
      | false =>
        rw [if_neg Bool.false_ne_true, List.nil_append]
        refine Doc.Cuts.mono (.append (first.cuts isComment endsHere.stops) further) ?_
        rintro _ ⟨_, _, rfl, written, more⟩
        refine writtenAll_last written ?_ more
        rw [List.any_eq_false] at behind
        rw [List.all_eq_true]
        intro other member
        have comment := behind other member
        rwa [Bool.not_eq_true, Bool.not_eq_false'] at comment

/-- A table. -/
theorem AreLaid.laid_table {fields : List Field} {docs : List Doc}
    (laid : AreLaid config fields docs) (depth : Nat) (span : Span) :
    (Expression.table fields span).Laid config (tableDoc config depth fields docs) where
  cuts := by
    intro rest _
    have table {tokens : List Token}
        (parts : Token.Joined (Token.Joined (Doc.One (.symbol .leftCurly))
          (WrittenAll (surfaces fields))) (Doc.One (.symbol .rightCurly)) tokens) :
        (Expression.table fields span).surface.Written tokens := by
      obtain ⟨_, _, rfl, ⟨_, inner, rfl, ⟨opening, rfl, opens⟩, written⟩, closing, rfl, closes⟩ :=
        parts
      rw [Expression.surface]
      exact Expression.written_table opens written closes
    have closed : Doc.Cuts config _ rest (Doc.One (.symbol .rightCurly)) :=
      Doc.cuts_mark .rightCurly (fun _ => rfl) rest
    have opened (rest : List Char) : Doc.Cuts config _ rest (Doc.One (.symbol .leftCurly)) :=
      Doc.cuts_mark .leftCurly (fun _ => rfl) rest
    unfold tableDoc
    split
    next none =>
      cases List.isEmpty_iff.1 none
      have inner (rest : List Char) : Doc.Cuts config [] rest (WrittenAll (surfaces [])) := by
        refine Doc.Cuts.nil.mono ?_
        rintro _ rfl
        exact writtenAll_nil
      exact Doc.Cuts.mono (.append (.append (opened _) (inner _)) closed) fun _ => table
    next some =>
      have nonempty : fields ≠ [] := by
        rintro rfl
        exact some rfl
      split
      next inline =>
        have values : fields.any isComment = false := by
          simp only [Bool.and_eq_true, Bool.not_eq_true'] at inline
          exact inline.1.2
        have inner := laid.cuts_commaSeparated nonempty values
          (Token.stops_cons (show Token.isStop ' ' from rfl) ('\x7d' :: rest))
        exact Doc.Cuts.mono
          (.append (.append (Doc.Cuts.thenSpace (opened _)) inner) closed.space) fun _ => table
      next multi =>
        have ends : LineEnds (Doc.written config [.lineBreak depth, .char '\x7d'] ++ rest) :=
          Doc.lineEnds_lineBreak depth _ rest
        have inner := laid.cuts_stack (depth + 1) ends
        exact Doc.Cuts.mono
          (.append (.append (opened _) inner) (closed.lineBreak depth)) fun _ => table
  starts := by
    unfold tableDoc
    split
    · exact ⟨_, _, rfl, rfl⟩
    · split <;> exact ⟨_, _, rfl, rfl⟩
  plain := fun _ => by rw [Expression.surface]; rfl

end Field

/-! ### Where tokens start -/

namespace Token

/-- What is cut off a text that does not start with a space holds its first token. -/
theorem Cuts.nonempty {c : Char} {more rest : List Char} {holds : List Token → Prop}
    (solid : isSpace c = false) (cuts : Cuts (c :: more) rest holds) :
    Cuts (c :: more) rest fun tokens => holds tokens ∧
      startParenthesis tokens = (c == '(') := by
  intro offset
  obtain ⟨tokens, held, same⟩ := cuts offset
  refine ⟨tokens, ⟨held, ?_⟩, same⟩
  rw [List.cons_append, tokensFrom_cons solid] at same
  cases tokens with
  | nil =>
    -- The first token would have to start where it stops.
    have member := same ▸ List.mem_cons_self
    have later := (fits_of_mem_tokensFrom _ member).start_ge
    have positive := byteLength_pos c more
    dsimp only at later
    omega
  | cons first tokens =>
    cases List.cons.inj same with
    | intro same _ =>
      rw [startParenthesis, List.head?_cons, Option.any_some, ← same]
      dsimp only
      cases parenthesis : c == '(' with
      | true =>
        rw [eq_of_beq parenthesis]
        rfl
      | false =>
        have spelled := shape_spelled c (more ++ rest)
        rw [beq_eq_false_iff_ne]
        intro kind
        rw [kind] at spelled
        cases spelled with
        | symbol => cases parenthesis

end Token

/-! ### Blocks -/

namespace Statement

/-- The tokens are those of the statement. -/
def Written (statement : Statement) (tokens : List Token) : Prop :=
  ∃ read : Statement, read.Reads true tokens ∧ read.recast .shown = statement.recast .shown

/-- The rest may follow the statement. -/
def Follows (statement : Statement) (rest : List Char) : Prop :=
  if statement.isComment then LineEnds rest else Token.Stops rest

/-- The document is a layout of the statement, which is cut into the tokens of its surface. -/
structure Laid (config : Config) (statement : Statement) (doc : Doc) : Prop where
  cuts : ∀ rest, statement.Follows rest → doc.Cuts config rest statement.surface.Written
  starts : ∃ c more, doc = .char c :: more ∧ Token.isSpace c = false

/-- The documents are layouts of the statements. -/
abbrev AreLaid (config : Config) (body : List Statement) (docs : List Doc) : Prop :=
  List.Forall₂ (Laid config) body docs

theorem follows_of_lineEnds {statement : Statement} (ends : LineEnds rest) :
    statement.Follows rest := by
  unfold Follows
  split
  · exact ends
  · exact ends.stops

theorem isComment_surface (statement : Statement) :
    statement.surface.isComment = statement.isComment := by
  cases statement <;> rw [surface] <;> rfl

theorem isReturn_surface (statement : Statement) :
    statement.surface.isReturn = statement.isReturn := by
  cases statement <;> rw [surface] <;> rfl

theorem all_isComment_surfaces (body : List Statement) :
    (surfaces body).all isComment = body.all isComment := by
  induction body with
  | nil => rw [surfaces]
  | cons statement rest inductionHypothesis =>
    rw [surfaces, List.all_cons, List.all_cons, isComment_surface, inductionHypothesis]

/-- A statement stays a `return`, or another statement, when it is recast. -/
theorem any_isReturn_recast (recasting : Recasting) (statement : Statement) :
    (statement.recast recasting).any isReturn = statement.isReturn := by
  cases statement with
  | comment remark =>
    rw [recast]
    cases recasting.comment remark <;> rfl
  | _ => rfl

theorem writtenBody_nil : WrittenBody (surfaces []) [] := by
  rw [surfaces]
  exact ⟨[], .nil, rfl⟩

/-- A statement in front of others that do not start with a parenthesis. -/
theorem writtenBody_cons {statement : Statement} {body : List Statement}
    {tokens more : List Token} (written : statement.surface.Written tokens)
    (last : statement.isReturn → body.all isComment)
    (others : WrittenBody (surfaces body) more) (noCall : Token.startParenthesis more = false) :
    WrittenBody (surfaces (statement :: body)) (tokens ++ more) := by
  obtain ⟨read, reads, same⟩ := written
  obtain ⟨further, furtherReads, sameFurther⟩ := others
  have lastRead : read.isReturn → further.all isComment := by
    intro isReturn
    rw [← any_isReturn_recast .shown, same, any_isReturn_recast, isReturn_surface] at isReturn
    rw [← all_isComment_recastAll .shown, sameFurther, all_isComment_recastAll,
      all_isComment_surfaces]
    exact last isReturn
  refine ⟨read :: further, .cons reads lastRead (fun _ => noCall) furtherReads, ?_⟩
  rw [surfaces, recastAll, recastAll, same, sameFurther]

/-- Statements behind another one, with a semicolon if they start with a parenthesis. -/
theorem cuts_guarded {doc : Doc} {body : List Statement}
    (starts : ∃ c more, doc = .char c :: more ∧ Token.isSpace c = false)
    (cuts : doc.Cuts config rest (WrittenBody body)) :
    (guarded doc).Cuts config rest fun tokens =>
      WrittenBody body tokens ∧ Token.startParenthesis tokens = false := by
  obtain ⟨c, more, rfl, solid⟩ := starts
  have known := Token.Cuts.nonempty solid cuts
  unfold guarded
  split
  next opens =>
    cases opens
    refine Doc.Cuts.mono (.append (Doc.cuts_mark .semicolon (fun _ => rfl) _) known) ?_
    rintro _ ⟨_, tokens, rfl, ⟨mark, rfl, kind⟩, ⟨read, reads, same⟩, parenthesis⟩
    refine ⟨⟨read, .semicolon kind (fun _ => parenthesis) reads, same⟩, ?_⟩
    rw [List.singleton_append, Token.startParenthesis, List.head?_cons, Option.any_some, kind]
    rfl
  next other =>
    refine Doc.Cuts.mono known ?_
    rintro tokens ⟨written, parenthesis⟩
    refine ⟨written, parenthesis.trans (beq_eq_false_iff_ne.2 ?_)⟩
    rintro rfl
    exact other rfl

theorem stack_singleton (config : Config) (depth : Nat) (body : List Statement) (doc : Doc) :
    stack config depth body [doc] = doc := by
  cases body <;> rfl

theorem guarded_append {first : Doc} (second : Doc) (nonempty : first ≠ []) :
    guarded first ++ second = guarded (first ++ second) := by
  cases first with
  | nil => exact absurd rfl nonempty
  | cons piece first =>
    unfold guarded
    rw [List.cons_append, List.head?_cons, List.head?_cons]
    split <;> rfl

/-- A semicolon in front of the first statement stands in front of the whole block. -/
theorem stack_guarded (config : Config) (depth : Nat) (statement : Statement)
    (body : List Statement) {doc : Doc} (docs : List Doc) (nonempty : doc ≠ []) :
    stack config depth (statement :: body) (guarded doc :: docs) =
      guarded (stack config depth (statement :: body) (doc :: docs)) := by
  cases docs with
  | nil => rw [stack_singleton, stack_singleton]
  | cons next docs =>
    rw [stack, stack, List.append_assoc, List.append_assoc, guarded_append _ nonempty]

theorem Laid.ne_nil {statement : Statement} {doc : Doc} (laid : statement.Laid config doc) :
    doc ≠ [] := by
  obtain ⟨c, more, rfl, -⟩ := laid.starts
  exact List.cons_ne_nil _ _

/-- A block of statements starts with the first of them, and so with no space. -/
theorem Laid.starts_stack {statement : Statement} {doc : Doc} (laid : statement.Laid config doc)
    (depth : Nat) (body : List Statement) (docs : List Doc) :
    ∃ c more, stack config depth (statement :: body) (doc :: docs) = .char c :: more ∧
      Token.isSpace c = false := by
  obtain ⟨c, more, rfl, solid⟩ := laid.starts
  cases docs with
  | nil => exact ⟨c, more, stack_singleton .., solid⟩
  | cons next docs =>
    rw [stack]
    exact ⟨c, _, rfl, solid⟩

/-- What stands on the next line, or behind an empty line. -/
theorem cuts_nextLine {doc : Doc} {holds : List Token → Prop} (blankLine : Bool) (depth : Nat)
    (cuts : doc.Cuts config rest holds) :
    LineEnds (Doc.written config ((if blankLine then [.lineBreak 0] else []) ++
        .lineBreak depth :: doc) ++ rest) ∧
      Doc.Cuts config ((if blankLine then [.lineBreak 0] else []) ++ .lineBreak depth :: doc) rest
        holds := by
  cases blankLine with
  | true => exact ⟨Doc.lineEnds_lineBreak 0 _ rest, (cuts.lineBreak depth).lineBreak 0⟩
  | false => exact ⟨Doc.lineEnds_lineBreak depth _ rest, cuts.lineBreak depth⟩

/-- Statements below each other. -/
theorem AreLaid.cuts_stack {body : List Statement} {docs : List Doc}
    (laid : AreLaid config body docs) (depth : Nat) (isBlock : Statement.isBlock body)
    (follows : ∀ statement ∈ body, statement.Follows rest) :
    (stack config depth body docs).Cuts config rest (WrittenBody (surfaces body)) := by
  induction laid with
  | nil =>
    refine Doc.Cuts.nil.mono ?_
    rintro _ rfl
    exact writtenBody_nil
  | @cons statement doc body docs first others inductionHypothesis =>
    rw [Statement.isBlock, Bool.and_eq_true, Bool.or_eq_true, Bool.not_eq_true'] at isBlock
    obtain ⟨lastOrOn, isBlock⟩ := isBlock
    have last : statement.isReturn → body.all isComment := fun isReturn =>
      lastOrOn.resolve_left (by rw [isReturn]; rintro ⟨⟩)
    obtain ⟨followsHere, followsOthers⟩ := List.forall_mem_cons.1 follows
    have further := inductionHypothesis isBlock followsOthers
    cases others with
    | nil =>
      rw [stack_singleton]
      refine (first.cuts rest followsHere).mono ?_
      intro tokens written
      rw [← List.append_nil tokens]
      exact writtenBody_cons written last writtenBody_nil rfl
    | @cons second next body docs secondLaid others =>
      have guarded := cuts_guarded (secondLaid.starts_stack depth body docs) further
      rw [stack, List.append_assoc, stack_guarded config depth second body docs secondLaid.ne_nil]
      obtain ⟨ends, cuts⟩ := cuts_nextLine
        (config.extraNewlines && blankLineBetween statement (second :: body)) depth guarded
      refine Doc.Cuts.mono (.append (first.cuts _ (follows_of_lineEnds ends)) cuts) ?_
      rintro _ ⟨tokens, more, rfl, written, furtherWritten, noCall⟩
      exact writtenBody_cons written last furtherWritten noCall

/-- What stands behind a block, and in front of it. -/
theorem stops_blockDoc (depth : Nat) {isClosed : Bool} (body : List Statement) (docs : List Doc)
    (ends : isClosed = false → LineEnds rest) :
    Token.Stops ((blockDoc config depth isClosed body docs).written config ++ rest) := by
  unfold blockDoc
  dsimp only
  split
  · cases isClosed with
    | true => exact Token.stops_cons rfl rest
    | false => exact (ends rfl).stops
  · split
    · exact Token.stops_cons rfl _
    · exact (Doc.lineEnds_lineBreak (depth + 1) _ rest).stops

/-- A block from behind the word that opens it. -/
theorem AreLaid.cuts_blockDoc {body : List Statement} {docs : List Doc}
    (laid : AreLaid config body docs) (isBlock : Statement.isBlock body) (depth : Nat)
    {isClosed : Bool} (ends : isClosed = false → LineEnds rest) :
    (blockDoc config depth isClosed body docs).Cuts config rest (WrittenBody (surfaces body)) := by
  unfold blockDoc
  dsimp only
  split
  next none =>
    cases List.isEmpty_iff.1 none
    have nothing (rest : List Char) : Doc.Cuts config [] rest (WrittenBody (surfaces [])) := by
      refine Doc.Cuts.nil.mono ?_
      rintro _ rfl
      exact writtenBody_nil
    cases isClosed with
    | true => exact (nothing rest).space
    | false => exact nothing rest
  next some =>
    split
    next inline =>
      have single : isSingle body := by
        simp only [Bool.and_eq_true] at inline
        exact inline.1.2
      have inner {rest : List Char} (stops : Token.Stops rest) :
          (stack config (depth + 1) body docs).Cuts config rest (WrittenBody (surfaces body)) := by
        refine laid.cuts_stack (depth + 1) isBlock ?_
        match body, single with
        | [statement], single =>
          rw [isSingle, Bool.not_eq_true'] at single
          rw [List.forall_mem_singleton, Follows, single]
          exact stops
      cases isClosed with
      | true => exact Doc.Cuts.thenSpace (inner (Token.stops_cons rfl rest)).space
      | false =>
        rw [if_neg Bool.false_ne_true, List.append_nil]
        exact (inner (ends rfl).stops).space
    next multi =>
      have inner {rest : List Char} (ends : LineEnds rest) :=
        laid.cuts_stack (depth + 1) isBlock fun _ _ => follows_of_lineEnds ends
      cases isClosed with
      | true =>
        exact Doc.Cuts.thenLineBreak depth
          ((inner (Doc.lineEnds_lineBreak depth [] rest)).lineBreak (depth + 1))
      | false =>
        rw [if_neg Bool.false_ne_true, List.append_nil]
        exact (inner (ends rfl)).lineBreak (depth + 1)

end Statement

end LuaStyle
