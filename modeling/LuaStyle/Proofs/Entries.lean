/-
This file says which entries the outline of a syntax tree has, and proves that they are drawn.

The entries are given as a forest: each has a label and the entries directly below it. From this
alone it is clear how they are to be drawn, each in a row with a column for every entry above it,
and where an entry is the last one below another. The nodes of the tree do not know the forest, and
each of them says by itself which of the entries it draws is the last. That they say it rightly is
shown once for each node.
-/

import LuaStyle.Tree.Outline

namespace LuaStyle

/-! ### Entries and their rows -/

/-- An entry of an outline, with the entries directly below it. -/
inductive Entry where
  | node (label : List Char) (below : List Entry)

/-- An entry with nothing below it. -/
def Entry.leaf (label : List Char) : Entry :=
  node label []

/-- How an entry is drawn. -/
structure Row where
  /-- For each entry above it, from the outermost one on, whether that is a last one. -/
  columns : List Bool
  /-- The entry is drawn as the last one below the entry it belongs to. -/
  isFinal : Bool
  /-- The label of the entry. -/
  label : List Char

namespace Row

/-- How many entries the entry lies below. -/
def depth (row : Row) : Nat :=
  row.columns.length

/-- What stands in front of the label of an entry. -/
def connector (isFinal : Bool) : List Char :=
  if isFinal then ['╰', '─', ' '] else ['├', '─', ' ']

/-- What stands in front of everything below an entry: nothing is seen there if the entry is a last
one, and a bar leads past it to the next one if it is not. -/
def column (isFinal : Bool) : List Char :=
  if isFinal then [' ', ' ', ' '] else ['│', ' ', ' ']

/-- The columns as they are drawn. -/
def front (columns : List Bool) : List Char :=
  columns.flatMap column

/-- The row as it is drawn, with its line break. -/
def line (row : Row) : List Char :=
  front row.columns ++ connector row.isFinal ++ row.label ++ ['\n']

/-- The text of rows. -/
def text (rows : List Row) : List Char :=
  rows.flatMap line

theorem front_concat (columns : List Bool) (isLast : Bool) :
    front (columns ++ [isLast]) = front columns ++ Outline.column isLast := by
  rw [front, List.flatMap_append, List.flatMap_singleton]
  rfl

/-- The outline draws an entry as its row is drawn. -/
theorem line_eq_outline (columns : List Bool) (isLast : Bool) (label : List Char) :
    Outline.line (front columns) isLast label = line ⟨columns, isLast, label⟩ := rfl

theorem text_append (first second : List Row) :
    text (first ++ second) = text first ++ text second :=
  List.flatMap_append

end Row

namespace Entry

mutual

/-- The rows of an entry and of what is below it, behind the given columns. -/
def rows (columns : List Bool) (isLast : Bool) : Entry → List Row
  | node label below => ⟨columns, isLast, label⟩ :: rowsOfAll (columns ++ [isLast]) below

/-- The rows of the entries directly below an entry, of which only the last is drawn as the last. -/
def rowsOfAll (columns : List Bool) : List Entry → List Row
  | [] => []
  | entry :: rest => entry.rows columns rest.isEmpty ++ rowsOfAll columns rest

end

/-- The rows of entries at the top, which are drawn as if another one followed. -/
def rowsAtTop (entries : List Entry) : List Row :=
  entries.flatMap (rows [] false)

mutual

/-- The entry and what is below it, in preorder, each with the number of entries it lies below. -/
def preorder (depth : Nat) : Entry → List (Nat × List Char)
  | node label below => (depth, label) :: preorderOfAll (depth + 1) below

/-- Entries and what is below them, in preorder. -/
def preorderOfAll (depth : Nat) : List Entry → List (Nat × List Char)
  | [] => []
  | entry :: rest => entry.preorder depth ++ preorderOfAll depth rest

end

end Entry

/-! ### The entries of a tree -/

open Outline (labelled)

/-- The entry of a comment. -/
def Comment.entry (comment : Comment) : Entry :=
  .leaf comment.label

/-- The entries of a function's parts. Without parameters there is no entry for them. -/
def Parameter.entries (parameters : List Parameter) (body : List Entry) : List Entry :=
  (if parameters.isEmpty then []
    else [.node "Parameters".toList (parameters.map fun parameter => .leaf parameter.label)])
    ++ [.node "Body".toList body]

mutual

/-- The entry of an expression. -/
def Expression.entry : Expression → Entry
  | .binary operator left right _ =>
    .node (labelled "Binary".toList operator.text) [left.entry, right.entry]
  | .unary operator argument _ =>
    .node (labelled "Unary".toList operator.text) [argument.entry]
  | .call base arguments _ =>
    .node "Call".toList
      [.node "Callee".toList [base.entry],
        .node "Arguments".toList (Expression.entries arguments)]
  | .stringCall base argument _ =>
    .node "String Call".toList [base.entry, .leaf argument.label]
  | .tableCall base fields _ _ =>
    .node "Table Call".toList [base.entry, .node "Table".toList (Field.entries fields)]
  | .function head parameters body _ =>
    .node head.label (Parameter.entries parameters (Statement.entries body))
  | .group inner _ => .node "Group".toList [inner.entry]
  | .name identifier => .leaf (labelled "Variable".toList identifier.text)
  | .index base key _ => .node "Index".toList [base.entry, key.entry]
  | .member base selector name _ =>
    .node (labelled "Member".toList (selector.text ++ name.text)) [base.entry]
  | .literal constant => .leaf constant.label
  | .table fields _ => .node "Table".toList (Field.entries fields)

/-- The entries of expressions. -/
def Expression.entries : List Expression → List Entry
  | [] => []
  | expression :: rest => expression.entry :: Expression.entries rest

/-- The entry of the step of a loop, if there is one. -/
def Expression.stepEntries : Option Expression → List Entry
  | none => []
  | some step => [.node "Step".toList [step.entry]]

/-- The entry of a field. -/
def Field.entry : Field → Entry
  | .keyed key value _ => .node "Keyed Field".toList [key.entry, value.entry]
  | .named name value _ => .node (labelled "Named Field".toList name.text) [value.entry]
  | .positional value => value.entry
  | .comment remark => remark.entry

/-- The entries of fields. -/
def Field.entries : List Field → List Entry
  | [] => []
  | field :: rest => field.entry :: Field.entries rest

/-- The entry of a clause. -/
def Clause.entry : Clause → Entry
  | .guarded word condition body _ =>
    .node word.label
      [.node "Condition".toList [condition.entry], .node "Body".toList (Statement.entries body)]
  | .otherwise body _ =>
    .node "Else Clause".toList [.node "Body".toList (Statement.entries body)]

/-- The entries of clauses. -/
def Clause.entries : List Clause → List Entry
  | [] => []
  | clause :: rest => clause.entry :: Clause.entries rest

/-- The entry of a statement. -/
def Statement.entry : Statement → Entry
  | .assignment targets values _ =>
    .node "Assignment".toList
      [.node "Variables".toList (Expression.entries targets),
        .node "Values".toList (Expression.entries values)]
  | .breakLoop _ => .leaf "Break".toList
  | .call expression _ => .node "Call Statement".toList [expression.entry]
  | .comment remark => remark.entry
  | .doBlock body _ => .node "Do".toList (Statement.entries body)
  | .genericFor declared iterators body _ =>
    .node "For Generic".toList
      [.node "Variables".toList (declared.map fun name => .leaf name.label),
        .node "Iterators".toList (Expression.entries iterators),
        .node "Body".toList (Statement.entries body)]
  | .numericFor counter first last step body _ =>
    .node (labelled "For Numeric".toList counter.text)
      ([.node "Start".toList [first.entry], .node "End".toList [last.entry]]
        ++ Expression.stepEntries step ++ [.node "Body".toList (Statement.entries body)])
  | .function head parameters body _ =>
    .node head.label (Parameter.entries parameters (Statement.entries body))
  | .goto target _ => .leaf (labelled "Goto".toList target.text)
  | .ifElse clauses _ => .node "If".toList (Clause.entries clauses)
  | .label name _ => .leaf (labelled "Label".toList name.text)
  | .localVariables declared values _ =>
    .node "Local".toList
      (.node "Variables".toList (declared.map fun name => .leaf name.label) ::
        (if values.isEmpty then []
          else [.node "Values".toList (Expression.entries values)]))
  | .repeatUntil body condition _ =>
    .node "Repeat".toList
      [.node "Body".toList (Statement.entries body), .node "Until".toList [condition.entry]]
  | .returnValues values _ => .node "Return".toList (Expression.entries values)
  | .whileLoop condition body _ =>
    .node "While".toList
      [.node "Condition".toList [condition.entry], .node "Body".toList (Statement.entries body)]

/-- The entries of statements. -/
def Statement.entries : List Statement → List Entry
  | [] => []
  | statement :: rest => statement.entry :: Statement.entries rest

end

/-! ### Drawing entries -/

/-- Behind any columns, what is drawn are the rows of the entry. -/
def Draws (draw : List Char → Bool → List Char) (entry : Entry) : Prop :=
  ∀ columns isLast, draw (Row.front columns) isLast = Row.text (entry.rows columns isLast)

/-- Behind any columns, what is drawn are the rows of entries that others follow. -/
def DrawsFirst (draw : List Char → List Char) (entries : List Entry) : Prop :=
  ∀ columns, draw (Row.front columns) = Row.text (entries.flatMap (Entry.rows columns false))

/-- Behind any columns, what is drawn are the rows of all entries directly below one entry. -/
def DrawsAll (draw : List Char → List Char) (entries : List Entry) : Prop :=
  ∀ columns, draw (Row.front columns) = Row.text (Entry.rowsOfAll columns entries)

section

variable {draw : List Char → Bool → List Char} {first second : List Char → List Char}
  {entry : Entry} {entries more : List Entry} {label : List Char}

theorem Draws.node (below : DrawsAll first entries) :
    Draws (Outline.node · · label first) (.node label entries) := by
  intro columns isLast
  show Outline.line _ isLast label ++ first (Row.front columns ++ Outline.column isLast) = _
  rw [← Row.front_concat, below, Entry.rows, Row.line_eq_outline]
  rfl

theorem Draws.leaf : Draws (Outline.line · · label) (.leaf label) :=
  fun columns isLast => (Row.line_eq_outline columns isLast label).trans (List.append_nil _).symm

theorem DrawsFirst.single (draws : Draws draw entry) : DrawsFirst (draw · false) [entry] := by
  intro columns
  rw [List.flatMap_singleton]
  exact draws columns false

theorem DrawsFirst.nil : DrawsFirst (fun _ => []) [] := fun _ => rfl

theorem DrawsFirst.append (draws : DrawsFirst first entries) (others : DrawsFirst second more) :
    DrawsFirst (fun columns => first columns ++ second columns) (entries ++ more) := by
  intro columns
  rw [List.flatMap_append, Row.text_append, ← draws, ← others]

theorem DrawsAll.single (draws : Draws draw entry) : DrawsAll (draw · true) [entry] := by
  intro columns
  exact (draws columns true).trans (congrArg Row.text (List.append_nil _).symm)

theorem DrawsAll.nil : DrawsAll (fun _ => []) [] := fun _ => rfl

/-- The first one, and those behind it if there are any. -/
theorem DrawsAll.cons {isLast : Bool} (draws : Draws draw entry) (others : DrawsAll first entries)
    (same : entries.isEmpty = isLast) :
    DrawsAll (fun columns => draw columns isLast ++ first columns) (entry :: entries) := by
  intro columns
  rw [Entry.rowsOfAll, same, Row.text_append, ← draws, ← others]

theorem Entry.rowsOfAll_concat (columns : List Bool) (entries : List Entry) (last : Entry) :
    rowsOfAll columns (entries ++ [last]) =
      entries.flatMap (rows columns false) ++ rows columns true last := by
  induction entries with
  | nil => exact List.append_nil _
  | cons entry entries inductionHypothesis =>
    have goesOn : (entries ++ [last]).isEmpty = false := by
      rw [List.isEmpty_eq_false_iff]
      exact List.append_ne_nil_of_right_ne_nil entries (List.cons_ne_nil last [])
    rw [List.cons_append, rowsOfAll, goesOn, inductionHypothesis, List.flatMap_cons,
      List.append_assoc]

/-- Behind all others, the last one. -/
theorem DrawsAll.concat (draws : DrawsFirst first entries) (last : Draws draw entry) :
    DrawsAll (fun columns => first columns ++ draw columns true) (entries ++ [entry]) := by
  intro columns
  rw [Entry.rowsOfAll_concat, Row.text_append, ← draws, ← last]

/-- Entries of which each draws itself, and those that follow only count. -/
theorem drawsAll_list {Item : Type} {draw : List Char → Bool → Item → List Char}
    {entryOf : Item → Entry} (draws : ∀ item, Draws (draw · · item) (entryOf item))
    (items : List Item) : DrawsAll (Outline.list draw · items) (items.map entryOf) := by
  induction items with
  | nil => exact .nil
  | cons item items inductionHypothesis =>
    exact .cons (draws item) inductionHypothesis List.isEmpty_map

end

/-! ### Every tree is drawn -/

theorem Parameter.draws (parameter : Parameter) :
    Draws (Parameter.outline · · parameter) (.leaf parameter.label) :=
  .leaf

theorem Name.draws (name : Name) : Draws (Name.outline · · name) (.leaf name.label) :=
  .leaf

theorem Comment.draws (comment : Comment) : Draws (Comment.outline · · comment) comment.entry :=
  .leaf

theorem Parameter.draws_outlines {body : List Char → List Char} {entries : List Entry}
    (parameters : List Parameter) (draws : DrawsAll body entries) :
    DrawsAll (Parameter.outlines parameters body) (Parameter.entries parameters entries) := by
  refine .concat ?_ (.node draws)
  split
  · exact .nil
  · exact .single (.node (drawsAll_list Parameter.draws parameters))

mutual

theorem Expression.draws : ∀ expression : Expression,
    Draws (Expression.outline · · expression) expression.entry
  | .binary _ left right _ => .node (.concat (.single left.draws) right.draws)
  | .unary _ argument _ => .node (.single argument.draws)
  | .call base arguments _ =>
    .node (.concat (.single (.node (.single base.draws)))
      (.node (Expression.draws_outlines arguments)))
  | .stringCall base _ _ => .node (.concat (.single base.draws) .leaf)
  | .tableCall base fields _ _ =>
    .node (.concat (.single base.draws) (.node (Field.draws_outlines fields)))
  | .function _ parameters body _ =>
    .node (Parameter.draws_outlines parameters (Statement.draws_outlines body))
  | .group inner _ => .node (.single inner.draws)
  | .name _ => .leaf
  | .index base key _ => .node (.concat (.single base.draws) key.draws)
  | .member base _ _ _ => .node (.single base.draws)
  | .literal _ => .leaf
  | .table fields _ => .node (Field.draws_outlines fields)

theorem Expression.draws_outlines : ∀ expressions : List Expression,
    DrawsAll (Expression.outlines · expressions) (Expression.entries expressions)
  | [] => .nil
  | expression :: rest =>
    .cons expression.draws (Expression.draws_outlines rest) (by cases rest <;> rfl)

theorem Expression.draws_stepOutline : ∀ step : Option Expression,
    DrawsFirst (Expression.stepOutline · step) (Expression.stepEntries step)
  | none => .nil
  | some step => .single (.node (.single step.draws))

theorem Field.draws : ∀ field : Field, Draws (Field.outline · · field) field.entry
  | .keyed key value _ => .node (.concat (.single key.draws) value.draws)
  | .named _ value _ => .node (.single value.draws)
  | .positional value => value.draws
  | .comment remark => remark.draws

theorem Field.draws_outlines : ∀ fields : List Field,
    DrawsAll (Field.outlines · fields) (Field.entries fields)
  | [] => .nil
  | field :: rest => .cons field.draws (Field.draws_outlines rest) (by cases rest <;> rfl)

theorem Clause.draws : ∀ clause : Clause, Draws (Clause.outline · · clause) clause.entry
  | .guarded _ condition body _ =>
    .node (.concat (.single (.node (.single condition.draws)))
      (.node (Statement.draws_outlines body)))
  | .otherwise body _ => .node (.single (.node (Statement.draws_outlines body)))

theorem Clause.draws_outlines : ∀ clauses : List Clause,
    DrawsAll (Clause.outlines · clauses) (Clause.entries clauses)
  | [] => .nil
  | clause :: rest => .cons clause.draws (Clause.draws_outlines rest) (by cases rest <;> rfl)

theorem Statement.draws : ∀ statement : Statement,
    Draws (Statement.outline · · statement) statement.entry
  | .assignment targets values _ =>
    .node (.concat (.single (.node (Expression.draws_outlines targets)))
      (.node (Expression.draws_outlines values)))
  | .breakLoop _ => .leaf
  | .call expression _ => .node (.single expression.draws)
  | .comment remark => remark.draws
  | .doBlock body _ => .node (Statement.draws_outlines body)
  | .genericFor declared iterators body _ =>
    .node (.concat
      (.append (.single (.node (drawsAll_list Name.draws declared)))
        (.single (.node (Expression.draws_outlines iterators))))
      (.node (Statement.draws_outlines body)))
  | .numericFor _ first last step body _ =>
    .node (.concat
      (.append
        (.append (.single (.node (.single first.draws))) (.single (.node (.single last.draws))))
        (Expression.draws_stepOutline step))
      (.node (Statement.draws_outlines body)))
  | .function _ parameters body _ =>
    .node (Parameter.draws_outlines parameters (Statement.draws_outlines body))
  | .goto _ _ => .leaf
  | .ifElse clauses _ => .node (Clause.draws_outlines clauses)
  | .label _ _ => .leaf
  -- without values, the variables are the last
  | .localVariables declared [] _ => .node (.single (.node (drawsAll_list Name.draws declared)))
  | .localVariables declared (value :: rest) _ =>
    .node (.concat (.single (.node (drawsAll_list Name.draws declared)))
      (.node (Expression.draws_outlines (value :: rest))))
  | .repeatUntil body condition _ =>
    .node (.concat (.single (.node (Statement.draws_outlines body)))
      (.node (.single condition.draws)))
  | .returnValues values _ => .node (Expression.draws_outlines values)
  | .whileLoop condition body _ =>
    .node (.concat (.single (.node (.single condition.draws)))
      (.node (Statement.draws_outlines body)))

theorem Statement.draws_outlines : ∀ body : List Statement,
    DrawsAll (Statement.outlines · body) (Statement.entries body)
  | [] => .nil
  | statement :: rest =>
    .cons statement.draws (Statement.draws_outlines rest) (by cases rest <;> rfl)

end

/-! ### Displays -/

/-- What is drawn at the top are the rows of the entries there. -/
theorem Entry.text_rowsAtTop {Item : Type} {draw : List Char → Bool → Item → List Char}
    {entryOf : Item → Entry} (draws : ∀ item, Draws (draw · · item) (entryOf item))
    (items : List Item) :
    items.flatMap (draw [] false) = Row.text (rowsAtTop (items.map entryOf)) := by
  induction items with
  | nil => rfl
  | cons item items inductionHypothesis =>
    show _ = Row.text ((entryOf item).rows [] false ++ rowsAtTop (items.map entryOf))
    rw [List.flatMap_cons, inductionHypothesis, Row.text_append]
    exact congrArg (· ++ _) (draws item [] false)

theorem Statement.map_entry (body : List Statement) :
    body.map Statement.entry = Statement.entries body := by
  induction body with
  | nil => rfl
  | cons statement rest inductionHypothesis =>
    rw [List.map_cons, inductionHypothesis, Statement.entries]

theorem Chunk.display_eq (chunk : Chunk) :
    chunk.display = Row.text (Entry.rowsAtTop (Statement.entries chunk.body)) := by
  rw [← Statement.map_entry]
  exact Entry.text_rowsAtTop Statement.draws chunk.body

/-- The entries of a program: those of its statements, and then its comments. -/
def Program.entries (program : Program) : List Entry :=
  Statement.entries program.chunk.body ++ program.comments.map Comment.entry

theorem Program.display_eq (program : Program) :
    program.display = Row.text (Entry.rowsAtTop program.entries) := by
  rw [display, Chunk.display_eq, Entry.text_rowsAtTop Comment.draws, ← Row.text_append]
  exact congrArg Row.text List.flatMap_append.symm

end LuaStyle
