/-
This file proves that spans are properly nested once clauses reach their ends.

Letting clauses reach their ends does the least that is needed for that. It replaces where clauses
end and nothing else, and it does not look at what it replaces: to say so, each clause is cut back
to where it starts, which makes trees alike that differ only in where their clauses end. Extending
and cutting back undo each other, and so extending a second time changes nothing.

What the nesting is for is that each comment of the source lies on one side of every node, or
inside it.
-/

import LuaStyle.Proofs.Belonging

namespace LuaStyle

/-! ### Forgetting where clauses end -/

mutual

/-- The expression with every clause inside it cut back to where it starts. -/
def Expression.shrinkClauses : Expression → Expression
  | .binary operator left right span =>
    .binary operator left.shrinkClauses right.shrinkClauses span
  | .unary operator argument span => .unary operator argument.shrinkClauses span
  | .call base arguments span =>
    .call base.shrinkClauses (Expression.shrinkAll arguments) span
  | .stringCall base argument span => .stringCall base.shrinkClauses argument span
  | .tableCall base fields tableSpan span =>
    .tableCall base.shrinkClauses (Field.shrinkAll fields) tableSpan span
  | .function head parameters body span => .function head parameters (Statement.shrinkAll body) span
  | .group inner span => .group inner.shrinkClauses span
  | .name identifier => .name identifier
  | .index base key span => .index base.shrinkClauses key.shrinkClauses span
  | .member base selector name span => .member base.shrinkClauses selector name span
  | .literal constant => .literal constant
  | .table fields span => .table (Field.shrinkAll fields) span

/-- The expressions with every clause inside them cut back. -/
def Expression.shrinkAll : List Expression → List Expression
  | [] => []
  | expression :: rest => expression.shrinkClauses :: Expression.shrinkAll rest

/-- The expression that may be left out, with every clause inside it cut back. -/
def Expression.shrinkOptional : Option Expression → Option Expression
  | none => none
  | some expression => some expression.shrinkClauses

/-- The field with every clause inside it cut back. -/
def Field.shrinkClauses : Field → Field
  | .keyed key value span => .keyed key.shrinkClauses value.shrinkClauses span
  | .named name value span => .named name value.shrinkClauses span
  | .positional value => .positional value.shrinkClauses
  | .comment remark => .comment remark

/-- The fields with every clause inside them cut back. -/
def Field.shrinkAll : List Field → List Field
  | [] => []
  | field :: rest => field.shrinkClauses :: Field.shrinkAll rest

/-- The clause, and every clause inside it, cut back to where it starts. -/
def Clause.shrink : Clause → Clause
  | .guarded word condition body span =>
    .guarded word condition.shrinkClauses (Statement.shrinkAll body) ⟨span.start, span.start⟩
  | .otherwise body span => .otherwise (Statement.shrinkAll body) ⟨span.start, span.start⟩

/-- The clauses, and every clause inside them, cut back to where they start. -/
def Clause.shrinkAll : List Clause → List Clause
  | [] => []
  | clause :: rest => clause.shrink :: Clause.shrinkAll rest

/-- The statement with every clause inside it cut back to where it starts. -/
def Statement.shrinkClauses : Statement → Statement
  | .assignment targets values span =>
    .assignment (Expression.shrinkAll targets) (Expression.shrinkAll values) span
  | .breakLoop span => .breakLoop span
  | .call expression span => .call expression.shrinkClauses span
  | .comment remark => .comment remark
  | .doBlock body span => .doBlock (Statement.shrinkAll body) span
  | .genericFor declared iterators body span =>
    .genericFor declared (Expression.shrinkAll iterators) (Statement.shrinkAll body) span
  | .numericFor counter first last step body span =>
    .numericFor counter first.shrinkClauses last.shrinkClauses (Expression.shrinkOptional step)
      (Statement.shrinkAll body) span
  | .function head parameters body span =>
    .function head parameters (Statement.shrinkAll body) span
  | .goto target span => .goto target span
  | .ifElse clauses span => .ifElse (Clause.shrinkAll clauses) span
  | .label name span => .label name span
  | .localVariables declared values span =>
    .localVariables declared (Expression.shrinkAll values) span
  | .repeatUntil body condition span =>
    .repeatUntil (Statement.shrinkAll body) condition.shrinkClauses span
  | .returnValues values span => .returnValues (Expression.shrinkAll values) span
  | .whileLoop condition body span =>
    .whileLoop condition.shrinkClauses (Statement.shrinkAll body) span

/-- The statements with every clause inside them cut back. -/
def Statement.shrinkAll : List Statement → List Statement
  | [] => []
  | statement :: rest => statement.shrinkClauses :: Statement.shrinkAll rest

end

/-- The chunk with every clause cut back to where it starts. -/
def Chunk.shrinkClauses (chunk : Chunk) : Chunk :=
  ⟨Statement.shrinkAll chunk.body, chunk.span⟩

/-! ### Only the ends of clauses change -/

mutual

theorem Expression.shrinkClauses_extendClauses : ∀ expression : Expression,
    expression.extendClauses.shrinkClauses = expression.shrinkClauses
  | .binary _ left right _ => by
    rw [Expression.extendClauses, Expression.shrinkClauses, Expression.shrinkClauses,
      left.shrinkClauses_extendClauses, right.shrinkClauses_extendClauses]
  | .unary _ argument _ => by
    rw [Expression.extendClauses, Expression.shrinkClauses, Expression.shrinkClauses,
      argument.shrinkClauses_extendClauses]
  | .call base arguments _ => by
    rw [Expression.extendClauses, Expression.shrinkClauses, Expression.shrinkClauses,
      base.shrinkClauses_extendClauses, Expression.shrinkAll_extendAll arguments]
  | .stringCall base _ _ => by
    rw [Expression.extendClauses, Expression.shrinkClauses, Expression.shrinkClauses,
      base.shrinkClauses_extendClauses]
  | .tableCall base fields _ _ => by
    rw [Expression.extendClauses, Expression.shrinkClauses, Expression.shrinkClauses,
      base.shrinkClauses_extendClauses, Field.shrinkAll_extendAll fields]
  | .function _ _ body _ => by
    rw [Expression.extendClauses, Expression.shrinkClauses, Expression.shrinkClauses,
      Statement.shrinkAll_extendAll body]
  | .group inner _ => by
    rw [Expression.extendClauses, Expression.shrinkClauses, Expression.shrinkClauses,
      inner.shrinkClauses_extendClauses]
  | .name _ => rfl
  | .index base key _ => by
    rw [Expression.extendClauses, Expression.shrinkClauses, Expression.shrinkClauses,
      base.shrinkClauses_extendClauses, key.shrinkClauses_extendClauses]
  | .member base _ _ _ => by
    rw [Expression.extendClauses, Expression.shrinkClauses, Expression.shrinkClauses,
      base.shrinkClauses_extendClauses]
  | .literal _ => rfl
  | .table fields _ => by
    rw [Expression.extendClauses, Expression.shrinkClauses, Expression.shrinkClauses,
      Field.shrinkAll_extendAll fields]

theorem Expression.shrinkAll_extendAll : ∀ expressions : List Expression,
    Expression.shrinkAll (Expression.extendAll expressions) = Expression.shrinkAll expressions
  | [] => rfl
  | expression :: rest => by
    rw [Expression.extendAll, Expression.shrinkAll, Expression.shrinkAll,
      expression.shrinkClauses_extendClauses, Expression.shrinkAll_extendAll rest]

theorem Expression.shrinkOptional_extendOptional : ∀ optional : Option Expression,
    Expression.shrinkOptional (Expression.extendOptional optional) =
      Expression.shrinkOptional optional
  | none => rfl
  | some expression => congrArg some expression.shrinkClauses_extendClauses

theorem Field.shrinkClauses_extendClauses : ∀ field : Field,
    field.extendClauses.shrinkClauses = field.shrinkClauses
  | .keyed key value _ => by
    rw [Field.extendClauses, Field.shrinkClauses, Field.shrinkClauses,
      key.shrinkClauses_extendClauses, value.shrinkClauses_extendClauses]
  | .named _ value _ => by
    rw [Field.extendClauses, Field.shrinkClauses, Field.shrinkClauses,
      value.shrinkClauses_extendClauses]
  | .positional value => by
    rw [Field.extendClauses, Field.shrinkClauses, Field.shrinkClauses,
      value.shrinkClauses_extendClauses]
  | .comment _ => rfl

theorem Field.shrinkAll_extendAll : ∀ fields : List Field,
    Field.shrinkAll (Field.extendAll fields) = Field.shrinkAll fields
  | [] => rfl
  | field :: rest => by
    rw [Field.extendAll, Field.shrinkAll, Field.shrinkAll, field.shrinkClauses_extendClauses,
      Field.shrinkAll_extendAll rest]

theorem Clause.shrink_extendTo (stop : Nat) : ∀ clause : Clause,
    (clause.extendTo stop).shrink = clause.shrink
  | .guarded _ condition body _ => by
    rw [Clause.extendTo, Clause.shrink, Clause.shrink, condition.shrinkClauses_extendClauses,
      Statement.shrinkAll_extendAll body]
  | .otherwise body _ => by
    rw [Clause.extendTo, Clause.shrink, Clause.shrink, Statement.shrinkAll_extendAll body]

theorem Clause.shrinkAll_extendAll (stop : Nat) : ∀ clauses : List Clause,
    Clause.shrinkAll (Clause.extendAll stop clauses) = Clause.shrinkAll clauses
  | [] => rfl
  | clause :: rest => by
    rw [Clause.extendAll, Clause.shrinkAll, Clause.shrinkAll, Clause.shrink_extendTo _ clause,
      Clause.shrinkAll_extendAll stop rest]

theorem Statement.shrinkClauses_extendClauses : ∀ statement : Statement,
    statement.extendClauses.shrinkClauses = statement.shrinkClauses
  | .assignment targets values _ => by
    rw [Statement.extendClauses, Statement.shrinkClauses, Statement.shrinkClauses,
      Expression.shrinkAll_extendAll targets, Expression.shrinkAll_extendAll values]
  | .breakLoop _ => rfl
  | .call expression _ => by
    rw [Statement.extendClauses, Statement.shrinkClauses, Statement.shrinkClauses,
      expression.shrinkClauses_extendClauses]
  | .comment _ => rfl
  | .doBlock body _ => by
    rw [Statement.extendClauses, Statement.shrinkClauses, Statement.shrinkClauses,
      Statement.shrinkAll_extendAll body]
  | .genericFor _ iterators body _ => by
    rw [Statement.extendClauses, Statement.shrinkClauses, Statement.shrinkClauses,
      Expression.shrinkAll_extendAll iterators, Statement.shrinkAll_extendAll body]
  | .numericFor _ first last step body _ => by
    rw [Statement.extendClauses, Statement.shrinkClauses, Statement.shrinkClauses,
      first.shrinkClauses_extendClauses, last.shrinkClauses_extendClauses,
      Expression.shrinkOptional_extendOptional step, Statement.shrinkAll_extendAll body]
  | .function _ _ body _ => by
    rw [Statement.extendClauses, Statement.shrinkClauses, Statement.shrinkClauses,
      Statement.shrinkAll_extendAll body]
  | .goto _ _ => rfl
  | .ifElse clauses _ => by
    rw [Statement.extendClauses, Statement.shrinkClauses, Statement.shrinkClauses,
      Clause.shrinkAll_extendAll _ clauses]
  | .label _ _ => rfl
  | .localVariables _ values _ => by
    rw [Statement.extendClauses, Statement.shrinkClauses, Statement.shrinkClauses,
      Expression.shrinkAll_extendAll values]
  | .repeatUntil body condition _ => by
    rw [Statement.extendClauses, Statement.shrinkClauses, Statement.shrinkClauses,
      Statement.shrinkAll_extendAll body, condition.shrinkClauses_extendClauses]
  | .returnValues values _ => by
    rw [Statement.extendClauses, Statement.shrinkClauses, Statement.shrinkClauses,
      Expression.shrinkAll_extendAll values]
  | .whileLoop condition body _ => by
    rw [Statement.extendClauses, Statement.shrinkClauses, Statement.shrinkClauses,
      condition.shrinkClauses_extendClauses, Statement.shrinkAll_extendAll body]

theorem Statement.shrinkAll_extendAll : ∀ body : List Statement,
    Statement.shrinkAll (Statement.extendAll body) = Statement.shrinkAll body
  | [] => rfl
  | statement :: rest => by
    rw [Statement.extendAll, Statement.shrinkAll, Statement.shrinkAll,
      statement.shrinkClauses_extendClauses, Statement.shrinkAll_extendAll rest]

end

/-- Nothing of a chunk changes when its clauses are extended but where clauses end. -/
theorem Chunk.shrinkClauses_extendClauses (chunk : Chunk) :
    chunk.extendClauses.shrinkClauses = chunk.shrinkClauses :=
  congrArg (Chunk.mk · chunk.span) (Statement.shrinkAll_extendAll chunk.body)

/-! ### Where clauses ended makes no difference -/

/-- A clause reaches up to where the next one starts, and that is kept when it is cut back. -/
theorem Clause.reach_shrinkAll (further : List Clause) (stop : Nat) :
    Clause.reach (Clause.shrinkAll further) stop = Clause.reach further stop := by
  cases further with
  | nil => rfl
  | cons next rest => cases next <;> rfl

mutual

theorem Expression.extendClauses_shrinkClauses : ∀ expression : Expression,
    expression.shrinkClauses.extendClauses = expression.extendClauses
  | .binary _ left right _ => by
    rw [Expression.shrinkClauses, Expression.extendClauses, Expression.extendClauses,
      left.extendClauses_shrinkClauses, right.extendClauses_shrinkClauses]
  | .unary _ argument _ => by
    rw [Expression.shrinkClauses, Expression.extendClauses, Expression.extendClauses,
      argument.extendClauses_shrinkClauses]
  | .call base arguments _ => by
    rw [Expression.shrinkClauses, Expression.extendClauses, Expression.extendClauses,
      base.extendClauses_shrinkClauses, Expression.extendAll_shrinkAll arguments]
  | .stringCall base _ _ => by
    rw [Expression.shrinkClauses, Expression.extendClauses, Expression.extendClauses,
      base.extendClauses_shrinkClauses]
  | .tableCall base fields _ _ => by
    rw [Expression.shrinkClauses, Expression.extendClauses, Expression.extendClauses,
      base.extendClauses_shrinkClauses, Field.extendAll_shrinkAll fields]
  | .function _ _ body _ => by
    rw [Expression.shrinkClauses, Expression.extendClauses, Expression.extendClauses,
      Statement.extendAll_shrinkAll body]
  | .group inner _ => by
    rw [Expression.shrinkClauses, Expression.extendClauses, Expression.extendClauses,
      inner.extendClauses_shrinkClauses]
  | .name _ => rfl
  | .index base key _ => by
    rw [Expression.shrinkClauses, Expression.extendClauses, Expression.extendClauses,
      base.extendClauses_shrinkClauses, key.extendClauses_shrinkClauses]
  | .member base _ _ _ => by
    rw [Expression.shrinkClauses, Expression.extendClauses, Expression.extendClauses,
      base.extendClauses_shrinkClauses]
  | .literal _ => rfl
  | .table fields _ => by
    rw [Expression.shrinkClauses, Expression.extendClauses, Expression.extendClauses,
      Field.extendAll_shrinkAll fields]

theorem Expression.extendAll_shrinkAll : ∀ expressions : List Expression,
    Expression.extendAll (Expression.shrinkAll expressions) = Expression.extendAll expressions
  | [] => rfl
  | expression :: rest => by
    rw [Expression.shrinkAll, Expression.extendAll, Expression.extendAll,
      expression.extendClauses_shrinkClauses, Expression.extendAll_shrinkAll rest]

theorem Expression.extendOptional_shrinkOptional : ∀ optional : Option Expression,
    Expression.extendOptional (Expression.shrinkOptional optional) =
      Expression.extendOptional optional
  | none => rfl
  | some expression => congrArg some expression.extendClauses_shrinkClauses

theorem Field.extendClauses_shrinkClauses : ∀ field : Field,
    field.shrinkClauses.extendClauses = field.extendClauses
  | .keyed key value _ => by
    rw [Field.shrinkClauses, Field.extendClauses, Field.extendClauses,
      key.extendClauses_shrinkClauses, value.extendClauses_shrinkClauses]
  | .named _ value _ => by
    rw [Field.shrinkClauses, Field.extendClauses, Field.extendClauses,
      value.extendClauses_shrinkClauses]
  | .positional value => by
    rw [Field.shrinkClauses, Field.extendClauses, Field.extendClauses,
      value.extendClauses_shrinkClauses]
  | .comment _ => rfl

theorem Field.extendAll_shrinkAll : ∀ fields : List Field,
    Field.extendAll (Field.shrinkAll fields) = Field.extendAll fields
  | [] => rfl
  | field :: rest => by
    rw [Field.shrinkAll, Field.extendAll, Field.extendAll, field.extendClauses_shrinkClauses,
      Field.extendAll_shrinkAll rest]

theorem Clause.extendTo_shrink (stop : Nat) : ∀ clause : Clause,
    clause.shrink.extendTo stop = clause.extendTo stop
  | .guarded _ condition body _ => by
    rw [Clause.shrink, Clause.extendTo, Clause.extendTo, condition.extendClauses_shrinkClauses,
      Statement.extendAll_shrinkAll body]
  | .otherwise body _ => by
    rw [Clause.shrink, Clause.extendTo, Clause.extendTo, Statement.extendAll_shrinkAll body]

theorem Clause.extendAll_shrinkAll (stop : Nat) : ∀ clauses : List Clause,
    Clause.extendAll stop (Clause.shrinkAll clauses) = Clause.extendAll stop clauses
  | [] => rfl
  | clause :: rest => by
    rw [Clause.shrinkAll, Clause.extendAll, Clause.extendAll, Clause.reach_shrinkAll,
      Clause.extendTo_shrink _ clause, Clause.extendAll_shrinkAll stop rest]

theorem Statement.extendClauses_shrinkClauses : ∀ statement : Statement,
    statement.shrinkClauses.extendClauses = statement.extendClauses
  | .assignment targets values _ => by
    rw [Statement.shrinkClauses, Statement.extendClauses, Statement.extendClauses,
      Expression.extendAll_shrinkAll targets, Expression.extendAll_shrinkAll values]
  | .breakLoop _ => rfl
  | .call expression _ => by
    rw [Statement.shrinkClauses, Statement.extendClauses, Statement.extendClauses,
      expression.extendClauses_shrinkClauses]
  | .comment _ => rfl
  | .doBlock body _ => by
    rw [Statement.shrinkClauses, Statement.extendClauses, Statement.extendClauses,
      Statement.extendAll_shrinkAll body]
  | .genericFor _ iterators body _ => by
    rw [Statement.shrinkClauses, Statement.extendClauses, Statement.extendClauses,
      Expression.extendAll_shrinkAll iterators, Statement.extendAll_shrinkAll body]
  | .numericFor _ first last step body _ => by
    rw [Statement.shrinkClauses, Statement.extendClauses, Statement.extendClauses,
      first.extendClauses_shrinkClauses, last.extendClauses_shrinkClauses,
      Expression.extendOptional_shrinkOptional step, Statement.extendAll_shrinkAll body]
  | .function _ _ body _ => by
    rw [Statement.shrinkClauses, Statement.extendClauses, Statement.extendClauses,
      Statement.extendAll_shrinkAll body]
  | .goto _ _ => rfl
  | .ifElse clauses _ => by
    rw [Statement.shrinkClauses, Statement.extendClauses, Statement.extendClauses,
      Clause.extendAll_shrinkAll _ clauses]
  | .label _ _ => rfl
  | .localVariables _ values _ => by
    rw [Statement.shrinkClauses, Statement.extendClauses, Statement.extendClauses,
      Expression.extendAll_shrinkAll values]
  | .repeatUntil body condition _ => by
    rw [Statement.shrinkClauses, Statement.extendClauses, Statement.extendClauses,
      Statement.extendAll_shrinkAll body, condition.extendClauses_shrinkClauses]
  | .returnValues values _ => by
    rw [Statement.shrinkClauses, Statement.extendClauses, Statement.extendClauses,
      Expression.extendAll_shrinkAll values]
  | .whileLoop condition body _ => by
    rw [Statement.shrinkClauses, Statement.extendClauses, Statement.extendClauses,
      condition.extendClauses_shrinkClauses, Statement.extendAll_shrinkAll body]

theorem Statement.extendAll_shrinkAll : ∀ body : List Statement,
    Statement.extendAll (Statement.shrinkAll body) = Statement.extendAll body
  | [] => rfl
  | statement :: rest => by
    rw [Statement.shrinkAll, Statement.extendAll, Statement.extendAll,
      statement.extendClauses_shrinkClauses, Statement.extendAll_shrinkAll rest]

end

theorem Chunk.extendClauses_shrinkClauses (chunk : Chunk) :
    chunk.shrinkClauses.extendClauses = chunk.extendClauses :=
  congrArg (Chunk.mk · chunk.span) (Statement.extendAll_shrinkAll chunk.body)

/-- Extending clauses that reach their ends changes nothing. -/
theorem Chunk.extendClauses_extendClauses (chunk : Chunk) :
    chunk.extendClauses.extendClauses = chunk.extendClauses := by
  calc chunk.extendClauses.extendClauses
    _ = chunk.extendClauses.shrinkClauses.extendClauses :=
      chunk.extendClauses.extendClauses_shrinkClauses.symm
    _ = chunk.shrinkClauses.extendClauses := by rw [chunk.shrinkClauses_extendClauses]
    _ = chunk.extendClauses := chunk.extendClauses_shrinkClauses

/-! ### Nested spans -/

/-- A span lies inside another one, or they have no byte in common. -/
def Span.InsideOrApart (inner outer : Span) : Prop :=
  outer.Contains inner ∨ inner.stop ≤ outer.start ∨ outer.stop ≤ inner.start

/-- What is right inside a region lies in its span, takes up some of the source, and lies in order
and apart; and none of the comments is cut by the ends of the region. -/
structure Region.Proper (remarks : List Comment) (region : Region) : Prop where
  contains : ∀ child ∈ region.children, region.span.Contains child.span
  nonempty : ∀ child ∈ region.children, child.span.start < child.span.stop
  pairwise : region.children.Pairwise Region.Before
  whole : ∀ remark ∈ remarks, remark.span.InsideOrApart region.span

theorem Region.Nested.of_inside {source : List Token} {outer region : Region}
    (nested : outer.Nested source) (inside : outer.Inside region) : region.Nested source := by
  induction inside with
  | self => exact nested
  | child _ isChild inductionHypothesis => exact inductionHypothesis.of_child isChild

/-- A comment that lies where a token does is not cut by the ends of a region. -/
theorem Region.Tidy.insideOrApart {source : List Token} {region : Region} {remark : Comment}
    (tidy : region.Tidy source) (cut : remark.Cut source) :
    remark.span.InsideOrApart region.span := by
  obtain ⟨token, member, same, -⟩ := cut
  rw [same]
  rcases tidy.starts token member with behind | start_le
  · exact .inr (.inl behind)
  · rcases tidy.stops token member with stop_le | inFront
    · exact .inl ⟨start_le, stop_le⟩
    · exact .inr (.inr inFront)

theorem Region.Nested.proper {source : List Token} {region : Region} {remarks : List Comment}
    (nested : region.Nested source) (cut : ∀ remark ∈ remarks, remark.Cut source) :
    region.Proper remarks :=
  ⟨nested.tidy.contains, nested.tidy.nonempty, nested.tidy.pairwise,
    fun remark member => nested.tidy.insideOrApart (cut remark member)⟩

namespace Program

/-- Once the clauses of a source that parses reach their ends, all its nodes are properly nested,
names, parameters and literals included, and no comment lies across the end of a node. Of any chunk,
extending clauses changes nothing but where clauses end, and doing it again changes nothing. -/
theorem spans_nest :
    (∀ (source : List Char) (program : Program), parse source = .ok program →
      ∀ region, Region.Inside program.chunk.extendClauses.region region →
        region.Proper program.comments) ∧
    ∀ chunk : Chunk, chunk.extendClauses.shrinkClauses = chunk.shrinkClauses ∧
      chunk.extendClauses.extendClauses = chunk.extendClauses := by
  refine ⟨fun source program parsed region inside => ?_, fun chunk =>
    ⟨chunk.shrinkClauses_extendClauses, chunk.extendClauses_extendClauses⟩⟩
  have cut := cut_of_mem_commentsOf source
  rw [← (parse_reads parsed).2] at cut
  exact ((nested_of_parse parsed).of_inside inside).proper cut

theorem spans_nest_of_clauses :
    ∃ program, parse "if a then --b\n c() elseif d then else e() end".toList = .ok program ∧
      (∀ region, Region.Inside program.chunk.extendClauses.region region →
        region.Proper program.comments) ∧
      program.chunk.extendClauses.extendClauses = program.chunk.extendClauses := by
  obtain ⟨program, parsed⟩ := exists_of_isOk
    (show (parse "if a then --b\n c() elseif d then else e() end".toList).isOk by decide +kernel)
  exact ⟨program, parsed, spans_nest.1 _ program parsed, (spans_nest.2 program.chunk).2⟩

end Program

end LuaStyle
