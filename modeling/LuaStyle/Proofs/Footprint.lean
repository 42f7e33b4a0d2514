/-
This file lists what a syntax tree has inside as regions.

Every node with a span is a region, names, parameters and literals included, and the regions inside
it come in the order of the source. Blocks and tables are the regions with a list, and a table that
is an argument without parentheses is one of its own inside the call. Putting a comment into a tree
and then looking at its regions is the same as putting it among the regions of the tree.
-/

import LuaStyle.Proofs.Insertion
import LuaStyle.Proofs.Region
import Mathlib.Data.List.InsertIdx

namespace LuaStyle

/-! ### Regions of trees -/

/-- The region of a name. -/
def Name.region (name : Name) : Region :=
  .part name.span []

/-- The region of a parameter. -/
def Parameter.region (parameter : Parameter) : Region :=
  .part parameter.span []

/-- The region of a literal. -/
def Literal.region (constant : Literal) : Region :=
  .part constant.span []

/-- The region of the name of a function. -/
def FunctionName.region (name : FunctionName) : Region :=
  .part name.span (name.path.map Name.region ++ name.method.toList.map Name.region)

/-- The regions of the head of a function, which is its name if it has one. -/
def FunctionHead.regions (head : FunctionHead) : List Region :=
  head.name.toList.map FunctionName.region

mutual

/-- The region of an expression. -/
def Expression.region : Expression → Region
  | .binary _ left right span => .part span [left.region, right.region]
  | .unary _ argument span => .part span [argument.region]
  | .call base arguments span => .part span (base.region :: Expression.regions arguments)
  | .stringCall base argument span => .part span [base.region, argument.region]
  | .tableCall base fields tableSpan span =>
    .part span [base.region, .block tableSpan [] (Field.regions fields) []]
  | .function head parameters body span =>
    .block span (head.regions ++ parameters.map Parameter.region) (Statement.regions body) []
  | .group inner span => .part span [inner.region]
  | .name identifier => identifier.region
  | .index base key span => .part span [base.region, key.region]
  | .member base _ name span => .part span [base.region, name.region]
  | .literal constant => constant.region
  | .table fields span => .block span [] (Field.regions fields) []

/-- The regions of expressions. -/
def Expression.regions : List Expression → List Region
  | [] => []
  | expression :: rest => expression.region :: Expression.regions rest

/-- The region of the expression that may be left out. -/
def Expression.regionsOfOptional : Option Expression → List Region
  | none => []
  | some expression => [expression.region]

/-- The region of a field. -/
def Field.region : Field → Region
  | .keyed key value span => .part span [key.region, value.region]
  | .named name value span => .part span [name.region, value.region]
  | .positional value => .part value.span [value.region]
  | .comment remark => .comment remark

/-- The regions of fields. -/
def Field.regions : List Field → List Region
  | [] => []
  | field :: rest => field.region :: Field.regions rest

/-- The region of a clause. -/
def Clause.region : Clause → Region
  | .guarded _ condition body span => .block span [condition.region] (Statement.regions body) []
  | .otherwise body span => .block span [] (Statement.regions body) []

/-- The regions of clauses. -/
def Clause.regions : List Clause → List Region
  | [] => []
  | clause :: rest => clause.region :: Clause.regions rest

/-- The region of a statement. -/
def Statement.region : Statement → Region
  | .assignment targets values span =>
    .part span (Expression.regions targets ++ Expression.regions values)
  | .breakLoop span => .part span []
  | .call expression span => .part span [expression.region]
  | .comment remark => .comment remark
  | .doBlock body span => .block span [] (Statement.regions body) []
  | .genericFor declared iterators body span =>
    .block span (declared.map Name.region ++ Expression.regions iterators)
      (Statement.regions body) []
  | .numericFor counter first last step body span =>
    .block span
      (counter.region :: first.region :: last.region :: Expression.regionsOfOptional step)
      (Statement.regions body) []
  | .function head parameters body span =>
    .block span (head.regions ++ parameters.map Parameter.region) (Statement.regions body) []
  | .goto target span => .part span [target.region]
  | .ifElse clauses span => .part span (Clause.regions clauses)
  | .label name span => .part span [name.region]
  | .localVariables declared values span =>
    .part span (declared.map Name.region ++ Expression.regions values)
  | .repeatUntil body condition span =>
    .block span [] (Statement.regions body) [condition.region]
  | .returnValues values span => .part span (Expression.regions values)
  | .whileLoop condition body span =>
    .block span [condition.region] (Statement.regions body) []

/-- The regions of statements. -/
def Statement.regions : List Statement → List Region
  | [] => []
  | statement :: rest => statement.region :: Statement.regions rest

end

/-- The region of a chunk. -/
def Chunk.region (chunk : Chunk) : Region :=
  .block chunk.span [] (Statement.regions chunk.body) []

/-! ### Spans -/

theorem Expression.span_region (expression : Expression) :
    expression.region.span = expression.span := by
  cases expression <;> rfl

theorem Field.span_region (field : Field) : field.region.span = field.span := by
  cases field <;> rfl

theorem Clause.span_region (clause : Clause) : clause.region.span = clause.span := by
  cases clause <;> rfl

theorem Statement.span_region (statement : Statement) :
    statement.region.span = statement.span := by
  cases statement <;> rfl

/-- Extending clauses leaves an expression where it stands. -/
theorem Expression.span_extendClauses (expression : Expression) :
    expression.extendClauses.span = expression.span := by
  cases expression <;> rfl

theorem Expression.regions_eq_map (expressions : List Expression) :
    Expression.regions expressions = expressions.map region := by
  induction expressions with
  | nil => rfl
  | cons expression rest inductionHypothesis => rw [regions, inductionHypothesis, List.map_cons]

theorem Field.regions_eq_map (fields : List Field) : Field.regions fields = fields.map region := by
  induction fields with
  | nil => rfl
  | cons field rest inductionHypothesis => rw [Field.regions, inductionHypothesis, List.map_cons]

theorem Statement.regions_eq_map (body : List Statement) :
    Statement.regions body = body.map region := by
  induction body with
  | nil => rfl
  | cons statement rest inductionHypothesis =>
    rw [Statement.regions, inductionHypothesis, List.map_cons]

/-! ### Comments -/

/-- There are no comments in the name of a function. -/
theorem FunctionName.comments_region (name : FunctionName) : name.region.comments = [] := by
  refine Region.commentsAll_eq_nil fun part member => ?_
  rcases List.mem_append.1 member with inPath | inMethod
  · obtain ⟨_, -, rfl⟩ := List.mem_map.1 inPath
    rfl
  · obtain ⟨_, -, rfl⟩ := List.mem_map.1 inMethod
    rfl

/-- There are no comments in the head of a function. -/
theorem FunctionHead.comments_regions (head : FunctionHead) :
    Region.commentsAll head.regions = [] :=
  Region.commentsAll_eq_nil (List.forall_mem_map.2 fun name _ => name.comments_region)

theorem Name.comments_regions (names : List Name) :
    Region.commentsAll (names.map Name.region) = [] :=
  Region.commentsAll_eq_nil (List.forall_mem_map.2 fun _ _ => rfl)

theorem Parameter.comments_regions (parameters : List Parameter) :
    Region.commentsAll (parameters.map Parameter.region) = [] :=
  Region.commentsAll_eq_nil (List.forall_mem_map.2 fun _ _ => rfl)

mutual

/-- The comments of the region of an expression are those among its nodes. -/
theorem Expression.comments_region : ∀ expression : Expression,
    expression.region.comments = Node.commentsAmong expression.nodes
  | .binary _ left right _ => by
    simp only [Expression.region, Expression.nodes, Region.comments, Region.commentsAll,
      Node.commentsAmong_cons, Node.commentsAmong_append, Node.comments, left.comments_region,
      right.comments_region, List.append_nil, List.nil_append]
  | .unary _ argument _ => by
    simp only [Expression.region, Expression.nodes, Region.comments, Region.commentsAll,
      Node.commentsAmong_cons, Node.comments, argument.comments_region, List.append_nil,
      List.nil_append]
  | .call base arguments _ => by
    simp only [Expression.region, Expression.nodes, Region.comments, Region.commentsAll,
      Node.commentsAmong_cons, Node.commentsAmong_append, Node.comments, base.comments_region,
      Expression.comments_regions arguments, List.nil_append]
  | .stringCall base _ _ => by
    simp only [Expression.region, Expression.nodes, Literal.region, Region.comments,
      Region.commentsAll, Node.commentsAmong_cons, Node.comments, base.comments_region,
      List.append_nil, List.nil_append]
  | .tableCall base fields _ _ => by
    simp only [Expression.region, Expression.nodes, Region.comments, Region.commentsAll,
      Node.commentsAmong_cons, Node.commentsAmong_append, Node.comments, base.comments_region,
      Field.comments_regions fields, List.append_nil, List.nil_append]
  | .function head parameters body _ => by
    simp only [Expression.region, Expression.nodes, Region.comments, Region.commentsAll,
      Region.commentsAll_append, Node.commentsAmong_cons, Node.comments, head.comments_regions,
      Parameter.comments_regions parameters, Statement.comments_regions body, List.append_nil,
      List.nil_append]
  | .group inner _ => by
    simp only [Expression.region, Expression.nodes, Region.comments, Region.commentsAll,
      Node.commentsAmong_cons, Node.comments, inner.comments_region, List.append_nil,
      List.nil_append]
  | .name _ => rfl
  | .index base key _ => by
    simp only [Expression.region, Expression.nodes, Region.comments, Region.commentsAll,
      Node.commentsAmong_cons, Node.commentsAmong_append, Node.comments, base.comments_region,
      key.comments_region, List.append_nil, List.nil_append]
  | .member base _ _ _ => by
    simp only [Expression.region, Expression.nodes, Name.region, Region.comments,
      Region.commentsAll, Node.commentsAmong_cons, Node.comments, base.comments_region,
      List.append_nil, List.nil_append]
  | .literal _ => rfl
  | .table fields _ => by
    simp only [Expression.region, Expression.nodes, Region.comments, Region.commentsAll,
      Node.commentsAmong_cons, Node.comments, Field.comments_regions fields, List.append_nil,
      List.nil_append]

theorem Expression.comments_regions : ∀ expressions : List Expression,
    Region.commentsAll (Expression.regions expressions) =
      Node.commentsAmong (Expression.nodesOfAll expressions)
  | [] => rfl
  | expression :: rest => by
    rw [Expression.regions, Region.commentsAll, Expression.nodesOfAll, Node.commentsAmong_append,
      expression.comments_region, Expression.comments_regions rest]

theorem Expression.comments_regionsOfOptional : ∀ optional : Option Expression,
    Region.commentsAll (Expression.regionsOfOptional optional) =
      Node.commentsAmong (Expression.nodesOfOptional optional)
  | none => rfl
  | some expression => by
    rw [Expression.regionsOfOptional, Region.commentsAll, Region.commentsAll, List.append_nil]
    exact expression.comments_region

/-- A field is a comment, or its region has the comments among the nodes of the field. -/
theorem Field.comments_region : ∀ field : Field,
    field.region.own ++ field.region.comments = Node.commentsAmong field.nodes
  | .keyed key value _ => by
    simp only [Field.region, Field.nodes, Region.own, Region.comments, Region.commentsAll,
      Node.commentsAmong_cons, Node.commentsAmong_append, Node.comments, key.comments_region,
      value.comments_region, List.append_nil, List.nil_append]
  | .named _ value _ => by
    simp only [Field.region, Field.nodes, Name.region, Region.own, Region.comments,
      Region.commentsAll, Node.commentsAmong_cons, Node.comments, value.comments_region,
      List.append_nil, List.nil_append]
  | .positional value => by
    simp only [Field.region, Field.nodes, Region.own, Region.comments, Region.commentsAll,
      Node.commentsAmong_cons, Node.comments, value.comments_region, List.append_nil,
      List.nil_append]
  | .comment _ => rfl

theorem Field.comments_regions : ∀ fields : List Field,
    Region.commentsItems (Field.regions fields) = Node.commentsAmong (Field.nodesOfAll fields)
  | [] => rfl
  | field :: rest => by
    rw [Field.regions, Region.commentsItems, Field.nodesOfAll, Node.commentsAmong_append,
      field.comments_region, Field.comments_regions rest]

theorem Clause.comments_region : ∀ clause : Clause,
    clause.region.comments = Node.commentsAmong clause.nodes
  | .guarded _ condition body _ => by
    simp only [Clause.region, Clause.nodes, Region.comments, Region.commentsAll,
      Node.commentsAmong_cons, Node.commentsAmong_append, Node.comments, condition.comments_region,
      Statement.comments_regions body, List.append_nil, List.nil_append]
  | .otherwise body _ => by
    simp only [Clause.region, Clause.nodes, Region.comments, Region.commentsAll,
      Node.commentsAmong_cons, Node.comments, Statement.comments_regions body, List.append_nil,
      List.nil_append]

theorem Clause.comments_regions : ∀ clauses : List Clause,
    Region.commentsAll (Clause.regions clauses) = Node.commentsAmong (Clause.nodesOfAll clauses)
  | [] => rfl
  | clause :: rest => by
    rw [Clause.regions, Region.commentsAll, Clause.nodesOfAll, Node.commentsAmong_append,
      clause.comments_region, Clause.comments_regions rest]

/-- A statement is a comment, or its region has the comments among the nodes of the statement. -/
theorem Statement.comments_region : ∀ statement : Statement,
    statement.region.own ++ statement.region.comments = Node.commentsAmong statement.nodes
  | .assignment targets values _ => by
    simp only [Statement.region, Statement.nodes, Region.own, Region.comments,
      Region.commentsAll_append, Node.commentsAmong_cons, Node.commentsAmong_append, Node.comments,
      Expression.comments_regions targets, Expression.comments_regions values, List.nil_append]
  | .breakLoop _ => rfl
  | .call expression _ => by
    simp only [Statement.region, Statement.nodes, Region.own, Region.comments, Region.commentsAll,
      Node.commentsAmong_cons, Node.comments, expression.comments_region, List.append_nil,
      List.nil_append]
  | .comment _ => rfl
  | .doBlock body _ => by
    simp only [Statement.region, Statement.nodes, Region.own, Region.comments, Region.commentsAll,
      Node.commentsAmong_cons, Node.comments, Statement.comments_regions body, List.append_nil,
      List.nil_append]
  | .genericFor declared iterators body _ => by
    simp only [Statement.region, Statement.nodes, Region.own, Region.comments, Region.commentsAll,
      Region.commentsAll_append, Node.commentsAmong_cons, Node.commentsAmong_append, Node.comments,
      Name.comments_regions declared, Expression.comments_regions iterators,
      Statement.comments_regions body, List.append_nil, List.nil_append]
  | .numericFor _ first last step body _ => by
    simp only [Statement.region, Statement.nodes, Name.region, Region.own, Region.comments,
      Region.commentsAll, Node.commentsAmong_cons, Node.commentsAmong_append, Node.comments,
      first.comments_region, last.comments_region, Expression.comments_regionsOfOptional step,
      Statement.comments_regions body, List.append_nil, List.nil_append, List.append_assoc]
  | .function head parameters body _ => by
    simp only [Statement.region, Statement.nodes, Region.own, Region.comments, Region.commentsAll,
      Region.commentsAll_append, Node.commentsAmong_cons, Node.comments, head.comments_regions,
      Parameter.comments_regions parameters, Statement.comments_regions body, List.append_nil,
      List.nil_append]
  | .goto _ _ => rfl
  | .ifElse clauses _ => by
    simp only [Statement.region, Statement.nodes, Region.own, Region.comments,
      Node.commentsAmong_cons, Node.comments, Clause.comments_regions clauses, List.nil_append]
  | .label _ _ => rfl
  | .localVariables declared values _ => by
    simp only [Statement.region, Statement.nodes, Region.own, Region.comments,
      Region.commentsAll_append, Node.commentsAmong_cons, Node.comments,
      Name.comments_regions declared, Expression.comments_regions values, List.nil_append]
  | .repeatUntil body condition _ => by
    simp only [Statement.region, Statement.nodes, Region.own, Region.comments, Region.commentsAll,
      Node.commentsAmong_cons, Node.commentsAmong_append, Node.comments, condition.comments_region,
      Statement.comments_regions body, List.append_nil, List.nil_append]
  | .returnValues values _ => by
    simp only [Statement.region, Statement.nodes, Region.own, Region.comments,
      Node.commentsAmong_cons, Node.comments, Expression.comments_regions values, List.nil_append]
  | .whileLoop condition body _ => by
    simp only [Statement.region, Statement.nodes, Region.own, Region.comments, Region.commentsAll,
      Node.commentsAmong_cons, Node.commentsAmong_append, Node.comments, condition.comments_region,
      Statement.comments_regions body, List.append_nil, List.nil_append]

/-- The comments of the regions of a block are those among its nodes. -/
theorem Statement.comments_regions : ∀ body : List Statement,
    Region.commentsItems (Statement.regions body) =
      Node.commentsAmong (Statement.nodesOfAll body)
  | [] => rfl
  | statement :: rest => by
    rw [Statement.regions, Region.commentsItems, Statement.nodesOfAll, Node.commentsAmong_append,
      statement.comments_region, Statement.comments_regions rest]

end

/-- The comments of the region of a source are those among its nodes. -/
theorem Chunk.comments_region (chunk : Chunk) :
    chunk.region.comments = Node.commentsAmong (Statement.nodesOfAll chunk.body) := by
  rw [Chunk.region, Region.comments, Region.commentsAll, List.nil_append, List.append_nil]
  exact Statement.comments_regions chunk.body

/-! ### Placing -/

namespace Region

variable {remark : Comment}

/-- Where every region refuses a comment, none is the first to take it. -/
theorem placeFirst_eq_none {regions : List Region}
    (refuse : ∀ region ∈ regions, region.place remark = none) :
    placeFirst remark regions = none := by
  induction regions with
  | nil => rfl
  | cons region rest inductionHypothesis =>
    obtain ⟨first, others⟩ := List.forall_mem_cons.1 refuse
    rw [placeFirst, first, inductionHypothesis others, Comment.within, ite_self]
    rfl

theorem placeFirst_append (front back : List Region) :
    placeFirst remark (front ++ back) =
      match placeFirst remark front with
      | some placed => some (placed ++ back)
      | none => (placeFirst remark back).map (front ++ ·) := by
  induction front with
  | nil => exact Option.map_id_fun ▸ rfl
  | cons region rest inductionHypothesis =>
    rw [List.cons_append, placeFirst, placeFirst, inductionHypothesis]
    cases remark.within region.span (region.place remark) with
    | some _ => rfl
    | none =>
      cases placeFirst remark rest with
      | some _ => rfl
      | none => exact Option.map_map ..

/-- Regions that refuse a comment leave it to those behind them. -/
theorem placeFirst_append_of_none {front : List Region}
    (refuse : ∀ region ∈ front, region.place remark = none) (back : List Region) :
    placeFirst remark (front ++ back) = (placeFirst remark back).map (front ++ ·) := by
  rw [placeFirst_append, placeFirst_eq_none refuse]

end Region

/-- A comment is placed within a span or refused, whatever is then made of the result. -/
theorem Comment.map_within {Placed Image : Type} (remark : Comment) (span : Span)
    (attempt : Option Placed) (image : Placed → Image) :
    (remark.within span attempt).map image = remark.within span (attempt.map image) := by
  unfold Comment.within
  split <;> rfl

section

variable (remark : Comment)

/-- A name takes no comment. -/
theorem Name.place_region (name : Name) : name.region.place remark = none := rfl

theorem Parameter.place_region (parameter : Parameter) : parameter.region.place remark = none := rfl

theorem Literal.place_region (constant : Literal) : constant.region.place remark = none := rfl

theorem Name.place_regions (names : List Name) :
    ∀ region ∈ names.map Name.region, region.place remark = none :=
  List.forall_mem_map.2 fun name _ => name.place_region remark

theorem Parameter.place_regions (parameters : List Parameter) :
    ∀ region ∈ parameters.map Parameter.region, region.place remark = none :=
  List.forall_mem_map.2 fun parameter _ => parameter.place_region remark

/-- The name of a function takes no comment. -/
theorem FunctionName.place_region (name : FunctionName) : name.region.place remark = none := by
  rw [FunctionName.region, Region.place, Region.placeFirst_eq_none]
  · rfl
  · exact List.forall_mem_append.2 ⟨Name.place_regions remark _, Name.place_regions remark _⟩

/-- The head of a function takes no comment. -/
theorem FunctionHead.place_regions (head : FunctionHead) :
    ∀ region ∈ head.regions, region.place remark = none :=
  List.forall_mem_map.2 fun name _ => name.place_region remark

/-- Settling the comment in a block is settling it among the regions of the block. -/
theorem Statement.regions_settle {body : List Statement}
    {attempt : Option (List Statement × Placement)} {placed : Option (List Region)}
    (same : attempt.map (fun result => regions result.1) = placed) :
    regions (settle remark body attempt).1 = Region.settle remark (regions body) placed := by
  cases attempt with
  | some result =>
    cases same
    rfl
  | none =>
    cases same
    have spans : (body.map region).map Region.span = body.map Statement.span := by
      rw [List.map_map]
      exact List.map_congr_left fun statement _ => statement.span_region
    simp only [settle, Region.settle, regions_eq_map, spans, List.map_insertIdx]
    rfl

/-- Settling the comment in a table is settling it among the regions of the fields. -/
theorem Field.regions_settle {fields : List Field}
    {attempt : Option (List Field × Placement)} {placed : Option (List Region)}
    (same : attempt.map (fun result => regions result.1) = placed) :
    regions (settle remark fields attempt).1 = Region.settle remark (regions fields) placed := by
  cases attempt with
  | some result =>
    cases same
    rfl
  | none =>
    cases same
    have spans : (fields.map region).map Region.span = fields.map Field.span := by
      rw [List.map_map]
      exact List.map_congr_left fun field _ => field.span_region
    simp only [settle, Region.settle, regions_eq_map, spans, List.map_insertIdx]
    rfl

/-- An attempt to put the comment into an expression, made only within its span. -/
theorem Expression.region_within {expression : Expression}
    (same : (expression.place remark).map (fun result => result.1.region) =
      expression.region.place remark) :
    (remark.within expression.span (expression.place remark)).map (fun result => result.1.region) =
      remark.within expression.region.span (expression.region.place remark) := by
  rw [Comment.map_within, same, span_region]

/-- A comment is put into what is in front of the list of a block, or else into the list. -/
theorem Region.place_block (span : Span) (before items : List Region) :
    (Region.block span before items []).place remark =
      match placeFirst remark before with
      | some before => some (.block span before items [])
      | none => some (.block span before (settle remark items (placeAmong remark items)) []) := by
  rw [place]
  rfl

/-- A comment goes past a region that refuses it. -/
theorem Region.placeFirst_cons_of_none {region : Region} (refuses : region.place remark = none)
    (rest : List Region) :
    placeFirst remark (region :: rest) = (placeFirst remark rest).map (region :: ·) :=
  placeFirst_append_of_none (List.forall_mem_singleton.2 refuses) rest

/-- A region that takes a comment stays where it is. -/
theorem Region.span_place {region placed : Region} (found : region.place remark = some placed) :
    placed.span = region.span := by
  cases region with
  | part =>
    obtain ⟨_, _, rfl⟩ := Option.map_eq_some_iff.1 found
    rfl
  | block =>
    rw [place] at found
    split at found
    · cases found
      rfl
    · split at found <;> cases found <;> rfl
  | comment => cases found

mutual

/-- Putting a comment into an expression is putting it into the region of the expression. -/
theorem Expression.region_place : ∀ expression : Expression,
    (expression.place remark).map (fun result => result.1.region) = expression.region.place remark
  | .binary _ left right _ => by
    rw [Expression.place, Expression.region, Region.place, Region.placeFirst, Region.placeFirst,
      Region.placeFirst, ← left.region_within remark left.region_place,
      ← right.region_within remark right.region_place]
    cases remark.within left.span (left.place remark) with
    | some _ => rfl
    | none => cases remark.within right.span (right.place remark) <;> rfl
  | .unary _ argument _ => by
    rw [Expression.place, Expression.region, Region.place, Region.placeFirst, Region.placeFirst,
      ← argument.region_within remark argument.region_place]
    cases remark.within argument.span (argument.place remark) <;> rfl
  | .call base arguments _ => by
    rw [Expression.place, Expression.region, Region.place, Region.placeFirst,
      ← base.region_within remark base.region_place, ← Expression.regions_placeAmong arguments]
    cases remark.within base.span (base.place remark) with
    | some _ => rfl
    | none => cases Expression.placeAmong remark arguments <;> rfl
  | .stringCall base argument _ => by
    rw [Expression.place, Expression.region, Region.place, Region.placeFirst,
      ← base.region_within remark base.region_place,
      Region.placeFirst_eq_none (List.forall_mem_singleton.2 (argument.place_region remark))]
    cases remark.within base.span (base.place remark) <;> rfl
  | .tableCall base fields tableSpan _ => by
    rw [Expression.place, Expression.region, Region.place, Region.placeFirst, Region.placeFirst,
      ← base.region_within remark base.region_place, Region.place_block,
      ← Field.regions_settle remark (Field.regions_placeAmong fields 0)]
    cases remark.within base.span (base.place remark) with
    | some _ => rfl
    | none =>
      dsimp only [Comment.within, Region.span]
      split <;> rfl
  | .function head parameters body _ => by
    rw [Expression.place, Expression.region, Region.place_block,
      Region.placeFirst_append_of_none (head.place_regions remark),
      Region.placeFirst_eq_none (Parameter.place_regions remark parameters),
      ← Statement.regions_settle remark (Statement.regions_placeAmong body 0)]
    rfl
  | .group inner _ => by
    rw [Expression.place, Expression.region, Region.place, Region.placeFirst, Region.placeFirst,
      ← inner.region_within remark inner.region_place]
    cases remark.within inner.span (inner.place remark) <;> rfl
  | .name _ => rfl
  | .index base key _ => by
    rw [Expression.place, Expression.region, Region.place, Region.placeFirst, Region.placeFirst,
      Region.placeFirst, ← base.region_within remark base.region_place,
      ← key.region_within remark key.region_place]
    cases remark.within base.span (base.place remark) with
    | some _ => rfl
    | none => cases remark.within key.span (key.place remark) <;> rfl
  | .member base _ name _ => by
    rw [Expression.place, Expression.region, Region.place, Region.placeFirst,
      ← base.region_within remark base.region_place,
      Region.placeFirst_eq_none (List.forall_mem_singleton.2 (name.place_region remark))]
    cases remark.within base.span (base.place remark) <;> rfl
  | .literal _ => rfl
  | .table fields _ => by
    rw [Expression.place, Expression.region, Region.place_block,
      ← Field.regions_settle remark (Field.regions_placeAmong fields 0)]
    rfl

/-- The first expression of a list that takes a comment is the first of its regions that does. -/
theorem Expression.regions_placeAmong : ∀ expressions : List Expression,
    (Expression.placeAmong remark expressions).map (fun result => Expression.regions result.1) =
      Region.placeFirst remark (Expression.regions expressions)
  | [] => rfl
  | expression :: rest => by
    rw [Expression.placeAmong, Expression.regions, Region.placeFirst,
      ← expression.region_within remark expression.region_place,
      ← Expression.regions_placeAmong rest]
    cases remark.within expression.span (expression.place remark) with
    | some _ => rfl
    | none => cases Expression.placeAmong remark rest <;> rfl

theorem Expression.regions_placeOptional : ∀ optional : Option Expression,
    (Expression.placeOptional remark optional).map
        (fun result => Expression.regionsOfOptional result.1) =
      Region.placeFirst remark (Expression.regionsOfOptional optional)
  | none => rfl
  | some expression => by
    rw [Expression.placeOptional, Expression.regionsOfOptional, Region.placeFirst,
      Region.placeFirst, ← expression.region_within remark expression.region_place]
    cases remark.within expression.span (expression.place remark) <;> rfl

/-- Putting a comment into a field is putting it into the region of the field. -/
theorem Field.region_place : ∀ field : Field,
    (field.place remark).map (fun result => result.1.region) = field.region.place remark
  | .keyed key value _ => by
    rw [Field.place, Field.region, Region.place, Region.placeFirst, Region.placeFirst,
      Region.placeFirst, ← key.region_within remark key.region_place,
      ← value.region_within remark value.region_place]
    cases remark.within key.span (key.place remark) with
    | some _ => rfl
    | none => cases remark.within value.span (value.place remark) <;> rfl
  | .named name value _ => by
    rw [Field.place, Field.region, Region.place,
      Region.placeFirst_cons_of_none remark (name.place_region remark), Region.placeFirst,
      Region.placeFirst, ← value.region_within remark value.region_place]
    cases remark.within value.span (value.place remark) <;> rfl
  | .positional value => by
    rw [Field.place, Field.region, Region.place, Region.placeFirst, Region.placeFirst,
      ← value.region_within remark value.region_place]
    cases found : remark.within value.span (value.place remark) with
    | none => rfl
    | some result =>
      have placed : value.region.place remark = some result.1.region := by
        rw [← value.region_place, Comment.of_within found]
        rfl
      have sameSpan := Region.span_place remark placed
      rw [Expression.span_region, Expression.span_region] at sameSpan
      rw [Option.map_some, Option.map_some, Field.region, sameSpan]
      rfl
  | .comment _ => rfl

theorem Field.regions_placeAmong : ∀ (fields : List Field) (index : Nat),
    (Field.placeAmong remark index fields).map (fun result => Field.regions result.1) =
      Region.placeAmong remark (Field.regions fields)
  | [], _ => rfl
  | field :: rest, index => by
    rw [Field.placeAmong, Field.regions, Region.placeAmong, field.span_region,
      ← field.region_place, ← Field.regions_placeAmong rest (index + 1)]
    split
    · cases field.place remark <;> rfl
    · cases Field.placeAmong remark (index + 1) rest <;> rfl

/-- Putting a comment into a clause is putting it into the region of the clause. -/
theorem Clause.region_place : ∀ clause : Clause,
    some (clause.place remark).1.region = clause.region.place remark
  | .guarded _ condition body _ => by
    rw [Clause.place, Clause.region, Region.place_block, Region.placeFirst, Region.placeFirst,
      ← condition.region_within remark condition.region_place,
      ← Statement.regions_settle remark (Statement.regions_placeAmong body 0)]
    cases remark.within condition.span (condition.place remark) <;> rfl
  | .otherwise body _ => by
    rw [Clause.place, Clause.region, Clause.region, Region.place_block,
      ← Statement.regions_settle remark (Statement.regions_placeAmong body 0)]
    rfl

theorem Clause.regions_placeAmong : ∀ clauses : List Clause,
    (Clause.placeAmong remark clauses).map (fun result => Clause.regions result.1) =
      Region.placeFirst remark (Clause.regions clauses)
  | [] => rfl
  | clause :: rest => by
    rw [Clause.placeAmong, Clause.regions, Region.placeFirst, clause.span_region,
      ← clause.region_place, ← Clause.regions_placeAmong rest, Comment.within]
    split
    · rfl
    · cases Clause.placeAmong remark rest <;> rfl

/-- Putting a comment into a statement is putting it into the region of the statement. -/
theorem Statement.region_place : ∀ statement : Statement,
    (statement.place remark).map (fun result => result.1.region) = statement.region.place remark
  | .assignment targets values _ => by
    rw [Statement.place, Statement.region, Region.place, Region.placeFirst_append,
      ← Expression.regions_placeAmong targets, ← Expression.regions_placeAmong values]
    cases Expression.placeAmong remark targets with
    | some _ => rfl
    | none => cases Expression.placeAmong remark values <;> rfl
  | .breakLoop _ => rfl
  | .call expression _ => by
    rw [Statement.place, Statement.region, Region.place, Region.placeFirst, Region.placeFirst,
      ← expression.region_within remark expression.region_place]
    cases remark.within expression.span (expression.place remark) <;> rfl
  | .comment _ => rfl
  | .doBlock body _ => by
    rw [Statement.place, Statement.region, Region.place_block,
      ← Statement.regions_settle remark (Statement.regions_placeAmong body 0)]
    rfl
  | .genericFor declared iterators body _ => by
    rw [Statement.place, Statement.region, Region.place_block,
      Region.placeFirst_append_of_none (Name.place_regions remark declared),
      ← Expression.regions_placeAmong iterators,
      ← Statement.regions_settle remark (Statement.regions_placeAmong body 0)]
    cases Expression.placeAmong remark iterators <;> rfl
  | .numericFor counter first last step body _ => by
    rw [Statement.place, Statement.region, Region.place_block,
      Region.placeFirst_cons_of_none remark (counter.place_region remark), Region.placeFirst,
      Region.placeFirst, ← first.region_within remark first.region_place,
      ← last.region_within remark last.region_place, ← Expression.regions_placeOptional step,
      ← Statement.regions_settle remark (Statement.regions_placeAmong body 0)]
    cases remark.within first.span (first.place remark) with
    | some _ => rfl
    | none =>
      cases remark.within last.span (last.place remark) with
      | some _ => rfl
      | none => cases Expression.placeOptional remark step <;> rfl
  | .function head parameters body _ => by
    rw [Statement.place, Statement.region, Region.place_block,
      Region.placeFirst_append_of_none (head.place_regions remark),
      Region.placeFirst_eq_none (Parameter.place_regions remark parameters),
      ← Statement.regions_settle remark (Statement.regions_placeAmong body 0)]
    rfl
  | .goto target _ => by
    rw [Statement.region, Region.place,
      Region.placeFirst_cons_of_none remark (target.place_region remark)]
    rfl
  | .ifElse clauses _ => by
    rw [Statement.place, Statement.region, Region.place, ← Clause.regions_placeAmong clauses]
    cases Clause.placeAmong remark clauses <;> rfl
  | .label name _ => by
    rw [Statement.region, Region.place,
      Region.placeFirst_cons_of_none remark (name.place_region remark)]
    rfl
  | .localVariables declared values _ => by
    rw [Statement.place, Statement.region, Region.place,
      Region.placeFirst_append_of_none (Name.place_regions remark declared),
      ← Expression.regions_placeAmong values]
    cases Expression.placeAmong remark values <;> rfl
  | .repeatUntil body condition _ => by
    rw [Statement.place, Statement.region, Region.place, Region.placeFirst, Region.placeFirst,
      Region.placeFirst, ← condition.region_within remark condition.region_place,
      ← Statement.regions_settle remark (Statement.regions_placeAmong body 0)]
    cases remark.within condition.span (condition.place remark) <;> rfl
  | .returnValues values _ => by
    rw [Statement.place, Statement.region, Region.place, ← Expression.regions_placeAmong values]
    cases Expression.placeAmong remark values <;> rfl
  | .whileLoop condition body _ => by
    rw [Statement.place, Statement.region, Region.place_block, Region.placeFirst,
      Region.placeFirst, ← condition.region_within remark condition.region_place,
      ← Statement.regions_settle remark (Statement.regions_placeAmong body 0)]
    cases remark.within condition.span (condition.place remark) <;> rfl

/-- Where a comment is placed in a block, it is placed among the regions of the block. -/
theorem Statement.regions_placeAmong : ∀ (body : List Statement) (index : Nat),
    (Statement.placeAmong remark index body).map (fun result => Statement.regions result.1) =
      Region.placeAmong remark (Statement.regions body)
  | [], _ => rfl
  | statement :: rest, index => by
    rw [Statement.placeAmong, Statement.regions, Region.placeAmong, statement.span_region,
      ← statement.region_place, ← Statement.regions_placeAmong rest (index + 1)]
    split
    · cases statement.place remark <;> rfl
    · cases Statement.placeAmong remark (index + 1) rest <;> rfl

end

/-- Putting a comment into a chunk is putting it into the region of the chunk. -/
theorem Chunk.region_placeComment (chunk : Chunk) :
    chunk.region.place remark = some (chunk.placeComment remark).1.region := by
  rw [Chunk.region, Region.place_block,
    ← Statement.regions_settle remark (Statement.regions_placeAmong remark chunk.body 0)]
  rfl

end

end LuaStyle
