/-
This file says where the spans of a tree lie among the tokens it is read from.

Tokens that lie one behind the other tell where a stretch of them starts and stops. The span of an
expression, of a field or of a statement reaches from its first token to its last, and neither of
the two is a comment. So comments inside a stretch do not matter for it, and a tree from which
comments are dropped is read from the tokens that are left, with the spans it had.
-/

import LuaStyle.Proofs.Grammatical

namespace LuaStyle

namespace Token

/-! ### Tokens in order -/

/-- The tokens lie one behind the other, and none of them is empty. -/
structure Ordered (tokens : List Token) : Prop where
  pairwise : tokens.Pairwise fun first second => first.stop ≤ second.start
  nonempty : ∀ token ∈ tokens, token.start < token.stop

variable {tokens more before after : List Token} {token : Token} {kind : Kind} {start stop : Nat}

/-- Dropping tokens leaves the others in order. -/
theorem Ordered.sublist (ordered : Ordered more) (part : tokens.Sublist more) : Ordered tokens :=
  ⟨ordered.pairwise.sublist part, fun token member => ordered.nonempty token (part.subset member)⟩

theorem Ordered.left (ordered : Ordered (before ++ after)) : Ordered before :=
  ordered.sublist (List.sublist_append_left ..)

theorem Ordered.right (ordered : Ordered (before ++ after)) : Ordered after :=
  ordered.sublist (List.sublist_append_right ..)

theorem Ordered.tail (ordered : Ordered (token :: tokens)) : Ordered tokens :=
  ordered.sublist (List.sublist_cons_self ..)

/-- A token before a point of the list stops before every token behind that point starts. -/
theorem Ordered.stop_le (ordered : Ordered (before ++ after)) {first second : Token}
    (isBefore : first ∈ before) (isAfter : second ∈ after) : first.stop ≤ second.start :=
  (List.pairwise_append.1 ordered.pairwise).2.2 first isBefore second isAfter

/-- The tokens of a source lie one behind the other. -/
theorem ordered_ofText (source : List Char) : Ordered (ofText source) :=
  ⟨pairwise_tokensFrom, fun token member => (fits_of_mem_tokensFrom token member).start_lt⟩

/-! ### The ends of a stretch -/

/-- The tokens start at the offset, and not with a comment. -/
def StartsAt (tokens : List Token) (offset : Nat) : Prop :=
  ∃ first more, tokens = first :: more ∧ first.kind ≠ .comment ∧ first.start = offset

/-- The tokens stop at the offset, and not with a comment. -/
def StopsAt (tokens : List Token) (offset : Nat) : Prop :=
  ∃ before last, tokens = before ++ [last] ∧ last.kind ≠ .comment ∧ last.stop = offset

/-- The span reaches from the first token to the last, and neither of them is a comment. -/
structure Spans (tokens : List Token) (span : Span) : Prop where
  starts : StartsAt tokens span.start
  stops : StopsAt tokens span.stop

/-- A token that is not a comment starts what it stands in front of. -/
theorem startsAt_cons (is : token.kind = kind) (code : kind ≠ .comment) (tokens : List Token) :
    StartsAt (token :: tokens) token.start :=
  ⟨token, tokens, rfl, is ▸ code, rfl⟩

/-- What follows does not change where the tokens start. -/
theorem StartsAt.append (starts : StartsAt tokens start) (more : List Token) :
    StartsAt (tokens ++ more) start := by
  obtain ⟨first, others, rfl, code, same⟩ := starts
  exact ⟨first, others ++ more, rfl, code, same⟩

theorem stopsAt_concat (is : token.kind = kind) (code : kind ≠ .comment) (tokens : List Token) :
    StopsAt (tokens ++ [token]) token.stop :=
  ⟨tokens, token, rfl, is ▸ code, rfl⟩

theorem StopsAt.append (stops : StopsAt more stop) (tokens : List Token) :
    StopsAt (tokens ++ more) stop := by
  obtain ⟨before, last, rfl, code, same⟩ := stops
  exact ⟨tokens ++ before, last, (List.append_assoc ..).symm, code, same⟩

/-- What comes before does not change where the tokens stop. -/
theorem StopsAt.cons (stops : StopsAt tokens stop) (token : Token) :
    StopsAt (token :: tokens) stop :=
  stops.append [token]

/-- A token alone is spanned by its own span. -/
theorem spans_single (is : token.kind = kind) (code : kind ≠ .comment) :
    Spans [token] token.span :=
  ⟨startsAt_cons is code [], stopsAt_concat is code []⟩

/-- A stretch between two tokens that are not comments. -/
theorem spans_between {first last : Token} {firstKind lastKind : Kind}
    (opens : first.kind = firstKind) (openCode : firstKind ≠ .comment)
    (closes : last.kind = lastKind) (closeCode : lastKind ≠ .comment) (tokens : List Token) :
    Spans (first :: tokens ++ [last]) ⟨first.start, last.stop⟩ :=
  ⟨startsAt_cons opens openCode (tokens ++ [last]),
    stopsAt_concat closes closeCode (first :: tokens)⟩

/-! ### Spans and places -/

section

variable {span : Span}

/-- The span of tokens that lie in order takes up some of the source. -/
theorem Spans.start_lt_stop (spans : Spans tokens span) (ordered : Ordered tokens) :
    span.start < span.stop := by
  obtain ⟨⟨first, more, rfl, -, start⟩, before, last, same, -, stop⟩ := spans
  rw [← start, ← stop]
  have firstNonempty := ordered.nonempty first List.mem_cons_self
  cases before with
  | nil =>
    obtain ⟨rfl, -⟩ := List.cons.inj same
    exact firstNonempty
  | cons other others =>
    obtain ⟨rfl, rfl⟩ := List.cons.inj same
    have lastMember : last ∈ first :: (others ++ [last]) := by simp
    have apart := List.rel_of_pairwise_cons ordered.pairwise (List.mem_append_right others
      List.mem_cons_self : last ∈ others ++ [last])
    exact Nat.lt_trans firstNonempty
      (Nat.lt_of_le_of_lt apart (ordered.nonempty last lastMember))

theorem Spans.ne_nil (spans : Spans tokens span) : tokens ≠ [] := by
  obtain ⟨⟨first, more, rfl, -⟩, -⟩ := spans
  exact nofun

/-- The span reaches over every token of the stretch. -/
theorem Spans.start_le_of_mem (spans : Spans tokens span) (ordered : Ordered tokens)
    (member : token ∈ tokens) : span.start ≤ token.start := by
  obtain ⟨⟨first, more, rfl, -, start⟩, -⟩ := spans
  rw [← start]
  rcases List.mem_cons.1 member with rfl | later
  · exact Nat.le_refl _
  · exact Nat.le_trans (Nat.le_of_lt (ordered.nonempty first List.mem_cons_self))
      (List.rel_of_pairwise_cons ordered.pairwise later)

theorem Spans.le_stop_of_mem (spans : Spans tokens span) (ordered : Ordered tokens)
    (member : token ∈ tokens) : token.stop ≤ span.stop := by
  obtain ⟨-, before, last, rfl, -, stop⟩ := spans
  rw [← stop]
  rcases List.mem_append.1 member with earlier | is
  · exact Nat.le_trans (ordered.stop_le earlier List.mem_cons_self)
      (Nat.le_of_lt (ordered.nonempty last (by simp)))
  · exact Nat.le_of_eq (congrArg Token.stop (List.mem_singleton.1 is))

/-- Every token a span reaches over lies inside it. -/
theorem Spans.contains_of_mem (spans : Spans tokens span) (ordered : Ordered tokens)
    (member : token ∈ tokens) : span.Contains token.span :=
  ⟨spans.start_le_of_mem ordered member, spans.le_stop_of_mem ordered member⟩

/-- A stretch behind a token starts behind it. -/
theorem Spans.stop_le_start (spans : Spans after span) (ordered : Ordered (before ++ after))
    (member : token ∈ before) : token.stop ≤ span.start := by
  obtain ⟨⟨first, more, rfl, -, start⟩, -⟩ := spans
  rw [← start]
  exact ordered.stop_le member List.mem_cons_self

/-- The span over two stretches reaches from the start of the first to the end of the second. -/
theorem Spans.merge_eq {first second : Span} (firstSpans : Spans before first)
    (secondSpans : Spans after second) (ordered : Ordered (before ++ after)) :
    first.merge second = ⟨first.start, second.stop⟩ := by
  have firstOrder := firstSpans.start_lt_stop ordered.left
  have secondOrder := secondSpans.start_lt_stop ordered.right
  have apart : first.stop ≤ second.start := by
    obtain ⟨-, earlier, last, rfl, -, stop⟩ := firstSpans
    rw [← stop]
    exact secondSpans.stop_le_start ordered (by simp)
  rw [Span.merge, Nat.min_eq_left (by omega), Nat.max_eq_right (by omega)]

end

/-! ### Extents -/

theorem StartsAt.extent_start (starts : StartsAt tokens start) : (extent tokens).start = start := by
  obtain ⟨first, more, rfl, -, same⟩ := starts
  exact same

theorem StopsAt.extent_stop (stops : StopsAt tokens stop) : (extent tokens).stop = stop := by
  obtain ⟨before, last, rfl, -, same⟩ := stops
  rw [extent, List.getLast?_concat]
  exact same

/-- There is one span that reaches over given tokens, which is their extent. -/
theorem Spans.extent_eq {span : Span} (spans : Spans tokens span) : extent tokens = span := by
  calc extent tokens = ⟨(extent tokens).start, (extent tokens).stop⟩ := rfl
    _ = ⟨span.start, span.stop⟩ := by
      rw [spans.starts.extent_start, spans.stops.extent_stop]

theorem spans_extent (starts : StartsAt tokens start) (stops : StopsAt tokens stop) :
    Spans tokens (extent tokens) := by
  refine ⟨?_, ?_⟩
  · rwa [starts.extent_start]
  · rwa [stops.extent_stop]

end Token

/-! ### Expressions -/

/-- The literal of a number has the span of its token. -/
theorem Grammar.span_of_numberLiteral {token : Token} {constant : Literal}
    (found : Grammar.numberLiteral token = .ok constant) : constant.span = token.span := by
  unfold numberLiteral at found
  split at found <;> cases found
  rfl

/-- The literal of a string has the span of its token. -/
theorem Grammar.span_of_stringLiteral {token : Token} {constant : Literal}
    (found : Grammar.stringLiteral token = .ok constant) : constant.span = token.span := by
  unfold stringLiteral at found
  split at found
  · cases found
    rfl
  · split at found <;> cases found
    rfl

theorem BinaryOperator.token_ne_comment (operator : BinaryOperator) :
    operator.token ≠ .comment := by
  cases operator <;> exact nofun

theorem UnaryOperator.token_ne_comment (operator : UnaryOperator) : operator.token ≠ .comment := by
  cases operator <;> exact nofun

theorem Token.ne_comment_of_isString {kind : Token.Kind}
    (isString : kind = .quotedString ∨ kind = .longString) : kind ≠ .comment := by
  rcases isString with rfl | rfl <;> exact nofun

theorem Literal.Reads.spans {constant : Literal} {token : Token} (reads : constant.Reads token) :
    Token.Spans [token] constant.span := by
  cases reads with
  | nil kind | true kind | false kind | vararg kind => exact Token.spans_single kind nofun
  | number kind found =>
    rw [Grammar.span_of_numberLiteral found]
    exact Token.spans_single kind nofun
  | string kind found =>
    rw [Grammar.span_of_stringLiteral found]
    exact Token.spans_single rfl (Token.ne_comment_of_isString kind)

theorem Name.Reads.spans {name : Name} {token : Token} (reads : name.Reads token) :
    Token.Spans [token] name.span := by
  obtain ⟨kind, rfl⟩ := reads
  exact Token.spans_single kind nofun

section

variable {strict : Bool}

/-- The parameters and the body of a function stop with its `end`, which is not a comment. -/
theorem Statement.ReadsFunction.stops {parameters : List Parameter} {body : List Statement}
    {tokens : List Token} (reads : Statement.ReadsFunction strict parameters body tokens) :
    ∃ stop, Token.StopsAt tokens stop := by
  cases reads with
  | intro _ _ _ _ ends => exact ⟨_, Token.stopsAt_concat ends nofun _⟩

/-- The span of an expression that is read, or called, reaches from its first token to its last. -/
theorem Expression.Reads.spans : ∀ (expression : Expression) {tokens : List Token},
    expression.Reads strict tokens ∨ expression.ReadsCallee strict tokens → Token.Ordered tokens →
      Token.Spans tokens expression.span
  | .binary operator left right _, _, reads, ordered => by
    cases Expression.reads_of_or reads rfl with
    | binary leftReads mark rightReads =>
      have leftSpans := Expression.Reads.spans left (.inl leftReads) ordered.left
      have rightSpans := Expression.Reads.spans right (.inl rightReads) ordered.right.tail
      have apart := ordered.sublist
        ((List.Sublist.refl _).append (List.sublist_cons_self ..))
      rw [Expression.span, leftSpans.merge_eq rightSpans apart]
      exact ⟨leftSpans.starts.append _, (rightSpans.stops.cons _).append _⟩
  | .unary operator argument _, _, reads, ordered => by
    cases Expression.reads_of_or reads rfl with
    | unary mark argumentReads =>
      have argumentSpans := Expression.Reads.spans argument (.inl argumentReads) ordered.tail
      exact ⟨Token.startsAt_cons mark operator.token_ne_comment _, argumentSpans.stops.cons _⟩
  | .call base _ _, _, reads, ordered => by
    cases Expression.reads_of_or reads rfl with
    | @call _ _ before opening tokens closing callee _ _ closes =>
      have baseSpans := Expression.Reads.spans base (.inr callee) ordered.left.left
      exact ⟨(baseSpans.starts.append _).append _, Token.stopsAt_concat closes nofun _⟩
  | .stringCall base _ _, _, reads, ordered => by
    cases Expression.reads_of_or reads rfl with
    | stringCall callee isString found =>
      have baseSpans := Expression.Reads.spans base (.inr callee) ordered.left
      exact ⟨baseSpans.starts.append _,
        Token.stopsAt_concat rfl (Token.ne_comment_of_isString isString) _⟩
  | .tableCall base _ _ _, _, reads, ordered => by
    cases Expression.reads_of_or reads rfl with
    | tableCall callee _ _ closes =>
      have baseSpans := Expression.Reads.spans base (.inr callee) ordered.left.left
      exact ⟨(baseSpans.starts.append _).append _, Token.stopsAt_concat closes nofun _⟩
  | .function .., _, reads, ordered => by
    cases Expression.reads_of_or reads rfl with
    | function keyword functionReads =>
      obtain ⟨stop, stops⟩ := functionReads.stops
      exact Token.spans_extent (Token.startsAt_cons keyword nofun _) (stops.cons _)
  | .group .., _, reads, ordered => by
    cases Expression.reads_of_or reads rfl with
    | group opens _ closes => exact Token.spans_between opens nofun closes nofun _
  | .name _, _, reads, ordered => by
    cases Expression.reads_of_or reads rfl with
    | name nameReads => exact nameReads.spans
  | .index base _ _, _, reads, ordered => by
    cases Expression.reads_of_or reads rfl with
    | index _ baseReads _ _ closes =>
      have baseSpans := Expression.Reads.spans base (.inl baseReads) ordered.left.left
      exact ⟨(baseSpans.starts.append _).append _, Token.stopsAt_concat closes nofun _⟩
  | .member base _ selected span, tokens, reads, ordered => by
    have ends : ∀ {before mark token}, tokens = before ++ [mark, token] →
        base.Reads strict before → selected.Reads token →
          span = ⟨base.span.start, selected.span.stop⟩ →
        Token.Spans tokens span := by
      rintro before mark token rfl baseReads nameReads rfl
      have baseSpans := Expression.Reads.spans base (.inl baseReads) ordered.left
      exact ⟨baseSpans.starts.append _, (nameReads.spans.stops.cons _).append _⟩
    rcases reads with reads | callee
    · cases reads with
      | member _ baseReads _ nameReads => exact ends rfl baseReads nameReads rfl
    · cases callee with
      | value _ reads =>
        cases reads with
        | member _ baseReads _ nameReads => exact ends rfl baseReads nameReads rfl
      | method _ baseReads _ nameReads => exact ends rfl baseReads nameReads rfl
  | .literal _, _, reads, ordered => by
    cases Expression.reads_of_or reads rfl with
    | literal literalReads => exact literalReads.spans
  | .table .., _, reads, ordered => by
    cases Expression.reads_of_or reads rfl with
    | table opens _ closes => exact Token.spans_between opens nofun closes nofun _

/-! ### Parts of statements -/

variable {tokens : List Token}

/-- Expressions with commas between them reach from the first of them to the last. -/
theorem Expression.ReadsAll.spans {expressions : List Expression}
    (reads : Expression.ReadsAll strict expressions tokens) (ordered : Token.Ordered tokens) :
    Token.Spans tokens (Token.extent tokens) ∧
      ∀ first ∈ expressions.head?, (Token.extent tokens).start = first.span.start := by
  induction expressions generalizing tokens with
  | nil => cases reads
  | cons expression rest inductionHypothesis =>
    cases reads with
    | single reads =>
      have spans := Expression.Reads.spans expression (.inl reads) ordered
      rw [spans.extent_eq]
      exact ⟨spans, fun first same => by cases same; rfl⟩
    | @cons _ _ _ mark more reads _ others =>
      have spans := Expression.Reads.spans expression (.inl reads) ordered.left
      obtain ⟨otherSpans, -⟩ := inductionHypothesis others ordered.right.tail
      have starts := spans.starts.append (mark :: more)
      refine ⟨Token.spans_extent starts ((otherSpans.stops.cons _).append _), ?_⟩
      intro first same
      cases same
      exact starts.extent_start

/-- The span of a field reaches from its first token to its last. -/
theorem Field.Reads.spans {field : Field} (reads : field.Reads strict tokens)
    (ordered : Token.Ordered tokens) : Token.Spans tokens field.span := by
  cases reads with
  | keyed opens _ _ _ value =>
    have valueSpans := Expression.Reads.spans _ (.inl value) ordered.right.tail.tail
    exact Token.spans_extent (Token.startsAt_cons opens nofun _)
      (((valueSpans.stops.cons _).cons _).append (_ :: _))
  | named name _ value =>
    have valueSpans := Expression.Reads.spans _ (.inl value) ordered.tail.tail
    exact Token.spans_extent (name.spans.starts.append (_ :: _)) ((valueSpans.stops.cons _).cons _)
  | positional value => exact Expression.Reads.spans _ (.inl value) ordered

/-- A list of names starts with its first name and stops with its last. -/
theorem Name.ReadsAll.spans {separator : Token.Kind} {names : List Name} {tokens : List Token}
    (reads : Name.ReadsAll separator names tokens) : Token.Spans tokens (Token.extent tokens) := by
  induction reads with
  | single reads =>
    rw [reads.spans.extent_eq]
    exact reads.spans
  | cons reads _ _ inductionHypothesis =>
    exact Token.spans_extent (reads.spans.starts.append (_ :: _))
      ((inductionHypothesis.stops.cons _).cons _)

/-- The name of a function spans the names and the separators it is read from. -/
theorem FunctionName.Reads.spans {name : FunctionName} {tokens : List Token}
    (reads : name.Reads tokens) : Token.Spans tokens name.span := by
  cases reads with
  | plain path => exact path.spans
  | method path _ method =>
    exact Token.spans_extent (path.spans.starts.append _) ((method.spans.stops.cons _).append _)

/-- The span of a clause starts with its first token. -/
theorem Clause.ReadsGuarded.starts {word : ClauseWord} {clause : Clause} {tokens : List Token}
    (reads : Clause.ReadsGuarded strict word clause tokens) :
    Token.StartsAt tokens clause.span.start := by
  cases reads with
  | intro keyword => exact Token.startsAt_cons keyword (by cases word <;> exact nofun) _

/-- The span of a statement reaches from its first token to its last. -/
theorem Statement.Reads.spans {statement : Statement} (reads : statement.Reads strict tokens)
    (ordered : Token.Ordered tokens) (code : statement.isComment = false) :
    Token.Spans tokens statement.span := by
  cases reads with
  | @assignment _ _ _ _ mark after _ targets _ values =>
    obtain ⟨targetSpans, first⟩ := targets.spans ordered.left
    obtain ⟨valueSpans, -⟩ := values.spans ordered.right.tail
    refine ⟨?_, (valueSpans.stops.cons _).append _⟩
    have starts := targetSpans.starts.append (mark :: after)
    rw [first _ rfl] at starts
    exact starts
  | breakLoop keyword => exact Token.spans_single keyword nofun
  | call _ reads => exact Expression.Reads.spans _ (.inl reads) ordered
  | comment => cases code
  | doBlock opens _ closes => exact Token.spans_between opens nofun closes nofun _
  | genericFor opens _ _ _ _ _ closes =>
    exact ⟨((((Token.startsAt_cons opens nofun []).append _).append _).append _).append _,
      Token.stopsAt_concat closes nofun _⟩
  | numericFor opens _ _ _ _ _ _ _ _ closes =>
    refine ⟨?_, Token.stopsAt_concat closes nofun _⟩
    exact ((((Token.startsAt_cons opens nofun (_ :: _ :: _)).append _).append _).append _).append _
  | function opens _ functionReads =>
    obtain ⟨stop, stops⟩ := functionReads.stops
    exact Token.spans_extent ((Token.startsAt_cons opens nofun _).append _) (stops.append (_ :: _))
  | localFunction opens _ _ functionReads =>
    obtain ⟨stop, stops⟩ := functionReads.stops
    exact Token.spans_extent (Token.startsAt_cons opens nofun _) (stops.append [_, _, _])
  | goto opens target =>
    exact ⟨Token.startsAt_cons opens nofun _, Token.stopsAt_concat target.1 nofun [_]⟩
  | ifElse clause _ closes =>
    have starts := clause.starts
    rw [← starts.extent_start] at starts
    exact ⟨(starts.append _).append _, Token.stopsAt_concat closes nofun _⟩
  | label opens _ closes => exact Token.spans_between opens nofun closes nofun [_]
  | localNames opens names =>
    exact Token.spans_extent (Token.startsAt_cons opens nofun _) (names.spans.stops.cons _)
  | localVariables opens _ _ values =>
    obtain ⟨valueSpans, -⟩ := values.spans ordered.right.tail
    exact Token.spans_extent ((Token.startsAt_cons opens nofun _).append _)
      ((valueSpans.stops.cons _).append _)
  | repeatUntil opens _ _ condition =>
    have conditionSpans := Expression.Reads.spans _ (.inl condition) ordered.right.tail
    exact Token.spans_extent ((Token.startsAt_cons opens nofun _).append _)
      ((conditionSpans.stops.cons _).append _)
  | @returnValues _ keyword inner final opens values ends =>
    have starts := (Token.startsAt_cons opens nofun inner).append final
    rcases ends with rfl | ⟨-, mark, kind, rfl⟩
    · cases values with
      | nil => exact Token.spans_extent starts (Token.stopsAt_concat opens nofun [])
      | some values =>
        obtain ⟨valueSpans, -⟩ := values.spans ordered.left.tail
        have stops := valueSpans.stops.cons keyword
        rw [← List.append_nil (keyword :: inner)] at stops
        exact Token.spans_extent starts stops
    · exact Token.spans_extent starts (Token.stopsAt_concat kind nofun _)
  | whileLoop opens _ _ _ closes =>
    exact ⟨(((Token.startsAt_cons opens nofun []).append _).append _).append _,
      Token.stopsAt_concat closes nofun _⟩

end

end LuaStyle
