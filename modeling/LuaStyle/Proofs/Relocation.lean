/-
This file says what becomes of the regions of a tree that is written elsewhere.

Recasting a tree replaces its spans and comments, and the regions of the recast tree are the regions
of the tree with their spans and comments replaced. The ends of clauses are found anew in both
trees. They are starts of other clauses or ends of statements, so they are replaced like these if
every offset is replaced by one and the same other offset wherever it occurs.
-/

import LuaStyle.Proofs.Footprint

namespace LuaStyle

/-- The chunk with its statements recast. -/
def Chunk.recast (recasting : Recasting) (chunk : Chunk) : Chunk :=
  ⟨Statement.recastAll recasting chunk.body, recasting.span chunk.span⟩

namespace Region

section

variable (recasting : Recasting)

/-- What becomes of an item of a list, if it is replaced by the given region. A comment is replaced
as such, or left out. -/
def listed (image : Region) : Region → List Region
  | part .. | block .. => [image]
  | comment remark => (recasting.comment remark).toList.map comment

mutual

/-- The region with its spans and comments replaced. -/
def recast : Region → Region
  | part span children => .part (recasting.span span) (recastAll children)
  | block span before items after =>
    .block (recasting.span span) (recastAll before) (recastItems items) (recastAll after)
  | comment remark => .comment ((recasting.comment remark).getD remark)

/-- The regions with their spans and comments replaced. -/
def recastAll : List Region → List Region
  | [] => []
  | region :: rest => region.recast :: recastAll rest

/-- The items of a list with their spans and comments replaced. -/
def recastItems : List Region → List Region
  | [] => []
  | item :: rest => listed recasting item.recast item ++ recastItems rest

end

theorem recastAll_eq_map (regions : List Region) :
    recastAll recasting regions = regions.map (recast recasting) := by
  induction regions with
  | nil => rfl
  | cons region rest inductionHypothesis => rw [recastAll, inductionHypothesis, List.map_cons]

theorem recastAll_append (front back : List Region) :
    recastAll recasting (front ++ back) =
      recastAll recasting front ++ recastAll recasting back := by
  rw [recastAll_eq_map, recastAll_eq_map, recastAll_eq_map, List.map_append]

theorem recastItems_append (front back : List Region) :
    recastItems recasting (front ++ back) =
      recastItems recasting front ++ recastItems recasting back := by
  induction front with
  | nil => rfl
  | cons item rest inductionHypothesis =>
    rw [List.cons_append, recastItems, recastItems, inductionHypothesis, List.append_assoc]

end

end Region

/-! ### Regions of trees -/

section

variable (recasting : Recasting)

theorem Name.region_recast (name : Name) :
    (name.recast recasting).region = name.region.recast recasting := rfl

theorem Name.regions_recast (names : List Name) :
    (names.map (Name.recast recasting)).map region =
      Region.recastAll recasting (names.map region) := by
  rw [Region.recastAll_eq_map, List.map_map, List.map_map]
  rfl

theorem Parameter.regions_recast (parameters : List Parameter) :
    (parameters.map (Parameter.recast recasting)).map region =
      Region.recastAll recasting (parameters.map region) := by
  rw [Region.recastAll_eq_map, List.map_map, List.map_map]
  refine List.map_congr_left fun parameter _ => ?_
  cases parameter <;> rfl

theorem Literal.region_recast (constant : Literal) :
    (constant.recast recasting).region = constant.region.recast recasting := rfl

theorem FunctionName.region_recast (name : FunctionName) :
    (name.recast recasting).region = name.region.recast recasting := by
  obtain ⟨path, method, span⟩ := name
  rw [region, region, Region.recast, Region.recastAll_append, ← Name.regions_recast,
    ← Name.regions_recast]
  cases method <;> rfl

theorem FunctionHead.regions_recast (head : FunctionHead) :
    (head.recast recasting).regions = Region.recastAll recasting head.regions := by
  obtain ⟨_ | name, isLocal⟩ := head
  · rfl
  · exact congrArg (fun region => [region]) (name.region_recast recasting)

theorem Expression.span_recast (expression : Expression) :
    (expression.recast recasting).span = recasting.span expression.span := by
  cases expression <;> rfl

mutual

/-- The region of a recast expression is the region of the expression, recast. -/
theorem Expression.region_recast : ∀ expression : Expression,
    (expression.recast recasting).region = expression.region.recast recasting
  | .binary _ left right _ => by
    simp only [Expression.recast, Expression.region, Region.recast, Region.recastAll,
      left.region_recast, right.region_recast]
  | .unary _ argument _ => by
    simp only [Expression.recast, Expression.region, Region.recast, Region.recastAll,
      argument.region_recast]
  | .call base arguments _ => by
    simp only [Expression.recast, Expression.region, Region.recast, Region.recastAll,
      base.region_recast, Expression.regions_recast arguments]
  | .stringCall base argument _ => by
    simp only [Expression.recast, Expression.region, Region.recast, Region.recastAll,
      base.region_recast, Literal.region_recast]
  | .tableCall base fields _ _ => by
    simp only [Expression.recast, Expression.region, Region.recast, Region.recastAll,
      base.region_recast, Field.regions_recast fields]
  | .function head parameters body _ => by
    simp only [Expression.recast, Expression.region, Region.recast, Region.recastAll,
      Region.recastAll_append, FunctionHead.regions_recast, Parameter.regions_recast,
      Statement.regions_recast body]
  | .group inner _ => by
    simp only [Expression.recast, Expression.region, Region.recast, Region.recastAll,
      inner.region_recast]
  | .name _ => rfl
  | .index base key _ => by
    simp only [Expression.recast, Expression.region, Region.recast, Region.recastAll,
      base.region_recast, key.region_recast]
  | .member base _ name _ => by
    simp only [Expression.recast, Expression.region, Region.recast, Region.recastAll,
      base.region_recast, Name.region_recast]
  | .literal _ => rfl
  | .table fields _ => by
    simp only [Expression.recast, Expression.region, Region.recast, Region.recastAll,
      Field.regions_recast fields]

theorem Expression.regions_recast : ∀ expressions : List Expression,
    Expression.regions (Expression.recastAll recasting expressions) =
      Region.recastAll recasting (Expression.regions expressions)
  | [] => rfl
  | expression :: rest => by
    simp only [Expression.recastAll, Expression.regions, Region.recastAll, expression.region_recast,
      Expression.regions_recast rest]

theorem Expression.regionsOfOptional_recast : ∀ optional : Option Expression,
    Expression.regionsOfOptional (Expression.recastOptional recasting optional) =
      Region.recastAll recasting (Expression.regionsOfOptional optional)
  | none => rfl
  | some expression => congrArg (fun region => [region]) expression.region_recast

theorem Field.region_recast : ∀ field : Field,
    Field.regions (field.recast recasting) = Region.recastItems recasting [field.region]
  | .keyed key value _ => by
    simp only [Field.recast, Field.regions, Field.region, Region.recastItems, Region.listed,
      List.append_nil, Region.recast, Region.recastAll, key.region_recast, value.region_recast]
  | .named name value _ => by
    simp only [Field.recast, Field.regions, Field.region, Region.recastItems, Region.listed,
      List.append_nil, Region.recast, Region.recastAll, Name.region_recast, value.region_recast]
  | .positional value => by
    simp only [Field.recast, Field.regions, Field.region, Region.recastItems, Region.listed,
      List.append_nil, Region.recast, Region.recastAll, value.region_recast, value.span_recast]
  | .comment remark => by
    simp only [Field.recast, Field.region, Region.recastItems, Region.listed, List.append_nil]
    cases recasting.comment remark <;> rfl

theorem Field.regions_recast : ∀ fields : List Field,
    Field.regions (Field.recastAll recasting fields) =
      Region.recastItems recasting (Field.regions fields)
  | [] => rfl
  | field :: rest => by
    have first := field.region_recast
    have others := Field.regions_recast rest
    rw [Field.regions_eq_map] at first others
    rw [Field.regions_eq_map, Field.recastAll, List.map_append, first, others,
      ← Region.recastItems_append]
    rfl

theorem Clause.region_recast : ∀ clause : Clause,
    (clause.recast recasting).region = clause.region.recast recasting
  | .guarded _ condition body _ => by
    simp only [Clause.recast, Clause.region, Region.recast, Region.recastAll,
      condition.region_recast, Statement.regions_recast body]
  | .otherwise body _ => by
    simp only [Clause.recast, Clause.region, Region.recast, Region.recastAll,
      Statement.regions_recast body]

theorem Clause.regions_recast : ∀ clauses : List Clause,
    Clause.regions (Clause.recastAll recasting clauses) =
      Region.recastAll recasting (Clause.regions clauses)
  | [] => rfl
  | clause :: rest => by
    simp only [Clause.recastAll, Clause.regions, Region.recastAll, clause.region_recast,
      Clause.regions_recast rest]

theorem Statement.region_recast : ∀ statement : Statement,
    Statement.regions (statement.recast recasting) =
      Region.recastItems recasting [statement.region]
  | .assignment targets values _ => by
    simp only [Statement.recast, Statement.regions, Statement.region, Region.recastItems,
      Region.listed, List.append_nil, Region.recast, Region.recastAll_append,
      Expression.regions_recast targets, Expression.regions_recast values]
  | .breakLoop _ => rfl
  | .call expression _ => by
    simp only [Statement.recast, Statement.regions, Statement.region, Region.recastItems,
      Region.listed, List.append_nil, Region.recast, Region.recastAll, expression.region_recast]
  | .comment remark => by
    simp only [Statement.recast, Statement.region, Region.recastItems, Region.listed,
      List.append_nil]
    cases recasting.comment remark <;> rfl
  | .doBlock body _ => by
    simp only [Statement.recast, Statement.regions, Statement.region, Region.recastItems,
      Region.listed, List.append_nil, Region.recast, Region.recastAll,
      Statement.regions_recast body]
  | .genericFor declared iterators body _ => by
    simp only [Statement.recast, Statement.regions, Statement.region, Region.recastItems,
      Region.listed, List.append_nil, Region.recast, Region.recastAll, Region.recastAll_append,
      Name.regions_recast, Expression.regions_recast iterators, Statement.regions_recast body]
  | .numericFor counter first last step body _ => by
    simp only [Statement.recast, Statement.regions, Statement.region, Region.recastItems,
      Region.listed, List.append_nil, Region.recast, Region.recastAll, Name.region_recast,
      first.region_recast, last.region_recast, Expression.regionsOfOptional_recast step,
      Statement.regions_recast body]
  | .function head parameters body _ => by
    simp only [Statement.recast, Statement.regions, Statement.region, Region.recastItems,
      Region.listed, List.append_nil, Region.recast, Region.recastAll, Region.recastAll_append,
      FunctionHead.regions_recast, Parameter.regions_recast, Statement.regions_recast body]
  | .goto _ _ => rfl
  | .ifElse clauses _ => by
    simp only [Statement.recast, Statement.regions, Statement.region, Region.recastItems,
      Region.listed, List.append_nil, Region.recast, Clause.regions_recast clauses]
  | .label _ _ => rfl
  | .localVariables declared values _ => by
    simp only [Statement.recast, Statement.regions, Statement.region, Region.recastItems,
      Region.listed, List.append_nil, Region.recast, Region.recastAll_append, Name.regions_recast,
      Expression.regions_recast values]
  | .repeatUntil body condition _ => by
    simp only [Statement.recast, Statement.regions, Statement.region, Region.recastItems,
      Region.listed, List.append_nil, Region.recast, Region.recastAll,
      Statement.regions_recast body, condition.region_recast]
  | .returnValues values _ => by
    simp only [Statement.recast, Statement.regions, Statement.region, Region.recastItems,
      Region.listed, List.append_nil, Region.recast, Expression.regions_recast values]
  | .whileLoop condition body _ => by
    simp only [Statement.recast, Statement.regions, Statement.region, Region.recastItems,
      Region.listed, List.append_nil, Region.recast, Region.recastAll, condition.region_recast,
      Statement.regions_recast body]

theorem Statement.regions_recast : ∀ body : List Statement,
    Statement.regions (Statement.recastAll recasting body) =
      Region.recastItems recasting (Statement.regions body)
  | [] => rfl
  | statement :: rest => by
    have first := statement.region_recast
    have others := Statement.regions_recast rest
    rw [Statement.regions_eq_map] at first others
    rw [Statement.regions_eq_map, Statement.recastAll, List.map_append, first, others,
      ← Region.recastItems_append]
    rfl

end

theorem Chunk.region_recast (chunk : Chunk) :
    (chunk.recast recasting).region = chunk.region.recast recasting := by
  rw [Chunk.region, Chunk.region, Region.recast, recast, Statement.regions_recast]
  rfl

end

/-! ### Ends of clauses -/

theorem Statement.extendAll_append (first second : List Statement) :
    extendAll (first ++ second) = extendAll first ++ extendAll second := by
  induction first with
  | nil => rfl
  | cons statement rest inductionHypothesis =>
    rw [List.cons_append, extendAll, extendAll, inductionHypothesis, List.cons_append]

theorem Field.extendAll_append (first second : List Field) :
    extendAll (first ++ second) = extendAll first ++ extendAll second := by
  induction first with
  | nil => rfl
  | cons field rest inductionHypothesis =>
    rw [List.cons_append, extendAll, extendAll, inductionHypothesis, List.cons_append]

section

variable {recasting : Recasting} {place : Nat → Nat}
  (moves : ∀ span, recasting.span span = ⟨place span.start, place span.stop⟩)

include moves

theorem Clause.reach_recastAll (rest : List Clause) (stop : Nat) :
    reach (recastAll recasting rest) (place stop) = place (reach rest stop) := by
  cases rest with
  | nil => rfl
  | cons next rest =>
    have start := congrArg Span.start (moves next.span)
    cases next <;> exact start

-- The hypothesis is of use only where a clause gets its end, and all forms are there together.
set_option linter.unusedSectionVars false in
mutual

/-- Extending the clauses of a recast expression is recasting the extended expression. -/
theorem Expression.extendClauses_recast : ∀ expression : Expression,
    (expression.recast recasting).extendClauses = expression.extendClauses.recast recasting
  | .binary _ left right _ => by
    simp only [Expression.recast, Expression.extendClauses, left.extendClauses_recast,
      right.extendClauses_recast]
  | .unary _ argument _ => by
    simp only [Expression.recast, Expression.extendClauses, argument.extendClauses_recast]
  | .call base arguments _ => by
    simp only [Expression.recast, Expression.extendClauses, base.extendClauses_recast,
      Expression.extendAll_recast arguments]
  | .stringCall base argument _ => by
    simp only [Expression.recast, Expression.extendClauses, base.extendClauses_recast]
  | .tableCall base fields _ _ => by
    simp only [Expression.recast, Expression.extendClauses, base.extendClauses_recast,
      Field.extendAll_recast fields]
  | .function head parameters body _ => by
    simp only [Expression.recast, Expression.extendClauses, Statement.extendAll_recast body]
  | .group inner _ => by
    simp only [Expression.recast, Expression.extendClauses, inner.extendClauses_recast]
  | .name _ => rfl
  | .index base key _ => by
    simp only [Expression.recast, Expression.extendClauses, base.extendClauses_recast,
      key.extendClauses_recast]
  | .member base _ name _ => by
    simp only [Expression.recast, Expression.extendClauses, base.extendClauses_recast]
  | .literal _ => rfl
  | .table fields _ => by
    simp only [Expression.recast, Expression.extendClauses, Field.extendAll_recast fields]

theorem Expression.extendAll_recast : ∀ expressions : List Expression,
    Expression.extendAll (Expression.recastAll recasting expressions) =
      Expression.recastAll recasting (Expression.extendAll expressions)
  | [] => rfl
  | expression :: rest => by
    simp only [Expression.recastAll, Expression.extendAll, expression.extendClauses_recast,
      Expression.extendAll_recast rest]

theorem Expression.extendOptional_recast : ∀ optional : Option Expression,
    Expression.extendOptional (Expression.recastOptional recasting optional) =
      Expression.recastOptional recasting (Expression.extendOptional optional)
  | none => rfl
  | some expression => congrArg some expression.extendClauses_recast

theorem Field.extendClauses_recast : ∀ field : Field,
    Field.extendAll (field.recast recasting) = field.extendClauses.recast recasting
  | .keyed key value _ => by
    simp only [Field.recast, Field.extendAll, Field.extendClauses, key.extendClauses_recast,
      value.extendClauses_recast]
  | .named name value _ => by
    simp only [Field.recast, Field.extendAll, Field.extendClauses, value.extendClauses_recast]
  | .positional value => by
    simp only [Field.recast, Field.extendAll, Field.extendClauses, value.extendClauses_recast]
  | .comment remark => by
    simp only [Field.recast, Field.extendClauses]
    cases recasting.comment remark <;> rfl

theorem Field.extendAll_recast : ∀ fields : List Field,
    Field.extendAll (Field.recastAll recasting fields) =
      Field.recastAll recasting (Field.extendAll fields)
  | [] => rfl
  | field :: rest => by
    rw [Field.recastAll, Field.extendAll_append, field.extendClauses_recast,
      Field.extendAll_recast rest]
    rfl

theorem Clause.extendClauses_recast (stop : Nat) : ∀ clause : Clause,
    (clause.recast recasting).extendTo (place stop) = (clause.extendTo stop).recast recasting
  | .guarded _ condition body _ => by
    simp only [Clause.recast, Clause.extendTo, moves, condition.extendClauses_recast,
      Statement.extendAll_recast body]
  | .otherwise body _ => by
    simp only [Clause.recast, Clause.extendTo, moves, Statement.extendAll_recast body]

theorem Clause.extendAll_recast (stop : Nat) : ∀ clauses : List Clause,
    Clause.extendAll (place stop) (Clause.recastAll recasting clauses) =
      Clause.recastAll recasting (Clause.extendAll stop clauses)
  | [] => rfl
  | clause :: rest => by
    simp only [Clause.recastAll, Clause.extendAll, Clause.reach_recastAll moves,
      clause.extendClauses_recast, Clause.extendAll_recast stop rest]

theorem Statement.extendClauses_recast : ∀ statement : Statement,
    Statement.extendAll (statement.recast recasting) = statement.extendClauses.recast recasting
  | .assignment targets values _ => by
    simp only [Statement.recast, Statement.extendAll, Statement.extendClauses,
      Expression.extendAll_recast targets, Expression.extendAll_recast values]
  | .breakLoop _ => rfl
  | .call expression _ => by
    simp only [Statement.recast, Statement.extendAll, Statement.extendClauses,
      expression.extendClauses_recast]
  | .comment remark => by
    simp only [Statement.recast, Statement.extendClauses]
    cases recasting.comment remark <;> rfl
  | .doBlock body _ => by
    simp only [Statement.recast, Statement.extendAll, Statement.extendClauses,
      Statement.extendAll_recast body]
  | .genericFor declared iterators body _ => by
    simp only [Statement.recast, Statement.extendAll, Statement.extendClauses,
      Expression.extendAll_recast iterators, Statement.extendAll_recast body]
  | .numericFor counter first last step body _ => by
    simp only [Statement.recast, Statement.extendAll, Statement.extendClauses,
      first.extendClauses_recast, last.extendClauses_recast, Expression.extendOptional_recast step,
      Statement.extendAll_recast body]
  | .function head parameters body _ => by
    simp only [Statement.recast, Statement.extendAll, Statement.extendClauses,
      Statement.extendAll_recast body]
  | .goto _ _ => rfl
  | .ifElse clauses span => by
    simp only [Statement.recast, Statement.extendAll, Statement.extendClauses,
      congrArg Span.stop (moves span), Clause.extendAll_recast span.stop clauses]
  | .label _ _ => rfl
  | .localVariables declared values _ => by
    simp only [Statement.recast, Statement.extendAll, Statement.extendClauses,
      Expression.extendAll_recast values]
  | .repeatUntil body condition _ => by
    simp only [Statement.recast, Statement.extendAll, Statement.extendClauses,
      Statement.extendAll_recast body, condition.extendClauses_recast]
  | .returnValues values _ => by
    simp only [Statement.recast, Statement.extendAll, Statement.extendClauses,
      Expression.extendAll_recast values]
  | .whileLoop condition body _ => by
    simp only [Statement.recast, Statement.extendAll, Statement.extendClauses,
      condition.extendClauses_recast, Statement.extendAll_recast body]

theorem Statement.extendAll_recast : ∀ body : List Statement,
    Statement.extendAll (Statement.recastAll recasting body) =
      Statement.recastAll recasting (Statement.extendAll body)
  | [] => rfl
  | statement :: rest => by
    rw [Statement.recastAll, Statement.extendAll_append, statement.extendClauses_recast,
      Statement.extendAll_recast rest]
    rfl

end

/-- Extending the clauses of a recast chunk is recasting the extended chunk. -/
theorem Chunk.extendClauses_recast (chunk : Chunk) :
    (chunk.recast recasting).extendClauses = chunk.extendClauses.recast recasting :=
  congrArg (Chunk.mk · (recasting.span chunk.span)) (Statement.extendAll_recast moves chunk.body)

end

end LuaStyle
