/-
This file says what it is for a tree to gain a comment.

One block or one table of the tree has the comment as one item more, anywhere among its items, and
everything else is the same: leaving out that item gives back the tree. The relation has one case
for each place in a tree where a block or a table can be, on the way down to it, and it does not say
how the place is found. What follows from it is that the comments of the tree are the same apart
from the one that came, and that nothing which is said without looking at comments has changed.
-/

import LuaStyle.Proofs.Recast

namespace LuaStyle

/-! ### The comments of a tree -/

/-- The comment that a node is, if it is one. -/
def Node.comments : Node → List Comment
  | .field (.comment remark) => [remark]
  | .statement (.comment remark) => [remark]
  | _ => []

/-- The comments among the nodes. -/
def Node.commentsAmong (nodes : List Node) : List Comment :=
  nodes.flatMap Node.comments

theorem Node.commentsAmong_append (first second : List Node) :
    commentsAmong (first ++ second) = commentsAmong first ++ commentsAmong second :=
  List.flatMap_append

theorem Node.commentsAmong_cons (node : Node) (rest : List Node) :
    commentsAmong (node :: rest) = node.comments ++ commentsAmong rest :=
  List.flatMap_cons

/-- How often a comment stands among the nodes. -/
def Node.count (remark : Comment) (nodes : List Node) : Nat :=
  (Node.commentsAmong nodes).count remark

theorem Node.count_append (remark : Comment) (first second : List Node) :
    Node.count remark (first ++ second) = Node.count remark first + Node.count remark second := by
  rw [Node.count, commentsAmong_append, List.count_append]
  rfl

theorem Node.count_cons (remark : Comment) (node : Node) (rest : List Node) :
    Node.count remark (node :: rest) = node.comments.count remark + Node.count remark rest := by
  rw [Node.count, commentsAmong_cons, List.count_append]
  rfl

/-! ### One comment more -/

section

variable (comment : Comment)

mutual

/-- The comment has come into a block or a table inside the expression. -/
inductive Expression.Gains : Expression → Expression → Prop
  | binaryLeft {operator left after right span} :
    Expression.Gains left after →
      Expression.Gains (.binary operator left right span) (.binary operator after right span)
  | binaryRight {operator left right after span} :
    Expression.Gains right after →
      Expression.Gains (.binary operator left right span) (.binary operator left after span)
  | unary {operator argument after span} :
    Expression.Gains argument after →
      Expression.Gains (.unary operator argument span) (.unary operator after span)
  | callBase {base after arguments span} :
    Expression.Gains base after →
      Expression.Gains (.call base arguments span) (.call after arguments span)
  | callArguments {base arguments after span} :
    Expression.GainsAmong arguments after →
      Expression.Gains (.call base arguments span) (.call base after span)
  | stringCall {base after argument span} :
    Expression.Gains base after →
      Expression.Gains (.stringCall base argument span) (.stringCall after argument span)
  | tableCallBase {base after fields tableSpan span} :
    Expression.Gains base after →
      Expression.Gains (.tableCall base fields tableSpan span)
        (.tableCall after fields tableSpan span)
  | tableCallFields {base fields after tableSpan span} :
    Field.GainsAmong fields after →
      Expression.Gains (.tableCall base fields tableSpan span)
        (.tableCall base after tableSpan span)
  | function {head parameters body after span} :
    Statement.GainsAmong body after →
      Expression.Gains (.function head parameters body span)
        (.function head parameters after span)
  | group {inner after span} :
    Expression.Gains inner after → Expression.Gains (.group inner span) (.group after span)
  | indexBase {base after key span} :
    Expression.Gains base after → Expression.Gains (.index base key span) (.index after key span)
  | indexKey {base key after span} :
    Expression.Gains key after → Expression.Gains (.index base key span) (.index base after span)
  | member {base after selector name span} :
    Expression.Gains base after →
      Expression.Gains (.member base selector name span) (.member after selector name span)
  | table {fields after span} :
    Field.GainsAmong fields after → Expression.Gains (.table fields span) (.table after span)

/-- The comment has come into one of the expressions. -/
inductive Expression.GainsAmong : List Expression → List Expression → Prop
  | inside {expression after rest} :
    Expression.Gains expression after →
      Expression.GainsAmong (expression :: rest) (after :: rest)
  | behind {expression rest after} :
    Expression.GainsAmong rest after →
      Expression.GainsAmong (expression :: rest) (expression :: after)

/-- The comment has come into a block or a table inside the field. -/
inductive Field.Gains : Field → Field → Prop
  | key {key after value span} :
    Expression.Gains key after → Field.Gains (.keyed key value span) (.keyed after value span)
  | keyedValue {key value after span} :
    Expression.Gains value after → Field.Gains (.keyed key value span) (.keyed key after span)
  | namedValue {name value after span} :
    Expression.Gains value after → Field.Gains (.named name value span) (.named name after span)
  | positional {value after} :
    Expression.Gains value after → Field.Gains (.positional value) (.positional after)

/-- The comment is one item more of the table, or has come into one of its fields. -/
inductive Field.GainsAmong : List Field → List Field → Prop
  | here {rest} : Field.GainsAmong rest (.comment comment :: rest)
  | inside {field after rest} :
    Field.Gains field after → Field.GainsAmong (field :: rest) (after :: rest)
  | behind {field rest after} :
    Field.GainsAmong rest after → Field.GainsAmong (field :: rest) (field :: after)

/-- The comment has come into the clause. -/
inductive Clause.Gains : Clause → Clause → Prop
  | condition {word condition after body span} :
    Expression.Gains condition after →
      Clause.Gains (.guarded word condition body span) (.guarded word after body span)
  | guarded {word condition body after span} :
    Statement.GainsAmong body after →
      Clause.Gains (.guarded word condition body span) (.guarded word condition after span)
  | otherwise {body after span} :
    Statement.GainsAmong body after → Clause.Gains (.otherwise body span) (.otherwise after span)

/-- The comment has come into one of the clauses. -/
inductive Clause.GainsAmong : List Clause → List Clause → Prop
  | inside {clause after rest} :
    Clause.Gains clause after → Clause.GainsAmong (clause :: rest) (after :: rest)
  | behind {clause rest after} :
    Clause.GainsAmong rest after → Clause.GainsAmong (clause :: rest) (clause :: after)

/-- The comment has come into a block or a table inside the statement. -/
inductive Statement.Gains : Statement → Statement → Prop
  | targets {targets after values span} :
    Expression.GainsAmong targets after →
      Statement.Gains (.assignment targets values span) (.assignment after values span)
  | values {targets values after span} :
    Expression.GainsAmong values after →
      Statement.Gains (.assignment targets values span) (.assignment targets after span)
  | call {expression after span} :
    Expression.Gains expression after → Statement.Gains (.call expression span) (.call after span)
  | doBlock {body after span} :
    Statement.GainsAmong body after → Statement.Gains (.doBlock body span) (.doBlock after span)
  | iterators {declared iterators after body span} :
    Expression.GainsAmong iterators after →
      Statement.Gains (.genericFor declared iterators body span)
        (.genericFor declared after body span)
  | genericFor {declared iterators body after span} :
    Statement.GainsAmong body after →
      Statement.Gains (.genericFor declared iterators body span)
        (.genericFor declared iterators after span)
  | first {counter first after last step body span} :
    Expression.Gains first after →
      Statement.Gains (.numericFor counter first last step body span)
        (.numericFor counter after last step body span)
  | last {counter first last after step body span} :
    Expression.Gains last after →
      Statement.Gains (.numericFor counter first last step body span)
        (.numericFor counter first after step body span)
  | step {counter first last step after body span} :
    Expression.Gains step after →
      Statement.Gains (.numericFor counter first last (some step) body span)
        (.numericFor counter first last (some after) body span)
  | numericFor {counter first last step body after span} :
    Statement.GainsAmong body after →
      Statement.Gains (.numericFor counter first last step body span)
        (.numericFor counter first last step after span)
  | function {head parameters body after span} :
    Statement.GainsAmong body after →
      Statement.Gains (.function head parameters body span) (.function head parameters after span)
  | ifElse {clauses after span} :
    Clause.GainsAmong clauses after → Statement.Gains (.ifElse clauses span) (.ifElse after span)
  | localVariables {declared values after span} :
    Expression.GainsAmong values after →
      Statement.Gains (.localVariables declared values span) (.localVariables declared after span)
  | repeatUntil {body after condition span} :
    Statement.GainsAmong body after →
      Statement.Gains (.repeatUntil body condition span) (.repeatUntil after condition span)
  | repeatCondition {body condition after span} :
    Expression.Gains condition after →
      Statement.Gains (.repeatUntil body condition span) (.repeatUntil body after span)
  | returnValues {values after span} :
    Expression.GainsAmong values after →
      Statement.Gains (.returnValues values span) (.returnValues after span)
  | whileCondition {condition after body span} :
    Expression.Gains condition after →
      Statement.Gains (.whileLoop condition body span) (.whileLoop after body span)
  | whileLoop {condition body after span} :
    Statement.GainsAmong body after →
      Statement.Gains (.whileLoop condition body span) (.whileLoop condition after span)

/-- The comment is one item more of the block, or has come into one of its statements. -/
inductive Statement.GainsAmong : List Statement → List Statement → Prop
  | here {rest} : Statement.GainsAmong rest (.comment comment :: rest)
  | inside {statement after rest} :
    Statement.Gains statement after → Statement.GainsAmong (statement :: rest) (after :: rest)
  | behind {statement rest after} :
    Statement.GainsAmong rest after → Statement.GainsAmong (statement :: rest) (statement :: after)

end

end

/-! ### What does not change -/

section

variable {comment : Comment} {recasting : Recasting}

mutual

/-- A recasting that leaves the comment out makes the tree with it and the tree without it equal. -/
theorem Expression.Gains.recast_eq : ∀ {before after : Expression},
    Expression.Gains comment before after → recasting.comment comment = none →
      Expression.recast recasting after = Expression.recast recasting before
  | _, _, .binaryLeft gains, drops => by
    rw [Expression.recast, Expression.recast, gains.recast_eq drops]
  | _, _, .binaryRight gains, drops => by
    rw [Expression.recast, Expression.recast, gains.recast_eq drops]
  | _, _, .unary gains, drops => by rw [Expression.recast, Expression.recast, gains.recast_eq drops]
  | _, _, .callBase gains, drops => by
    rw [Expression.recast, Expression.recast, gains.recast_eq drops]
  | _, _, .callArguments gains, drops => by
    rw [Expression.recast, Expression.recast, gains.recast_eq drops]
  | _, _, .stringCall gains, drops => by
    rw [Expression.recast, Expression.recast, gains.recast_eq drops]
  | _, _, .tableCallBase gains, drops => by
    rw [Expression.recast, Expression.recast, gains.recast_eq drops]
  | _, _, .tableCallFields gains, drops => by
    rw [Expression.recast, Expression.recast, gains.recast_eq drops]
  | _, _, .function gains, drops => by
    rw [Expression.recast, Expression.recast, gains.recast_eq drops]
  | _, _, .group gains, drops => by rw [Expression.recast, Expression.recast, gains.recast_eq drops]
  | _, _, .indexBase gains, drops => by
    rw [Expression.recast, Expression.recast, gains.recast_eq drops]
  | _, _, .indexKey gains, drops => by
    rw [Expression.recast, Expression.recast, gains.recast_eq drops]
  | _, _, .member gains, drops => by
    rw [Expression.recast, Expression.recast, gains.recast_eq drops]
  | _, _, .table gains, drops => by rw [Expression.recast, Expression.recast, gains.recast_eq drops]

theorem Expression.GainsAmong.recast_eq : ∀ {before after : List Expression},
    Expression.GainsAmong comment before after → recasting.comment comment = none →
      Expression.recastAll recasting after = Expression.recastAll recasting before
  | _, _, .inside gains, drops => by
    rw [Expression.recastAll, Expression.recastAll, gains.recast_eq drops]
  | _, _, .behind gains, drops => by
    rw [Expression.recastAll, Expression.recastAll, gains.recast_eq drops]

theorem Field.Gains.recast_eq : ∀ {before after : Field},
    Field.Gains comment before after → recasting.comment comment = none →
      Field.recast recasting after = Field.recast recasting before
  | _, _, .key gains, drops => by rw [Field.recast, Field.recast, gains.recast_eq drops]
  | _, _, .keyedValue gains, drops => by rw [Field.recast, Field.recast, gains.recast_eq drops]
  | _, _, .namedValue gains, drops => by rw [Field.recast, Field.recast, gains.recast_eq drops]
  | _, _, .positional gains, drops => by rw [Field.recast, Field.recast, gains.recast_eq drops]

theorem Field.GainsAmong.recast_eq : ∀ {before after : List Field},
    Field.GainsAmong comment before after → recasting.comment comment = none →
      Field.recastAll recasting after = Field.recastAll recasting before
  | _, _, .here, drops => by
    rw [Field.recastAll, Field.recast, drops]
    rfl
  | _, _, .inside gains, drops => by rw [Field.recastAll, Field.recastAll, gains.recast_eq drops]
  | _, _, .behind gains, drops => by rw [Field.recastAll, Field.recastAll, gains.recast_eq drops]

theorem Clause.Gains.recast_eq : ∀ {before after : Clause},
    Clause.Gains comment before after → recasting.comment comment = none →
      Clause.recast recasting after = Clause.recast recasting before
  | _, _, .condition gains, drops => by rw [Clause.recast, Clause.recast, gains.recast_eq drops]
  | _, _, .guarded gains, drops => by rw [Clause.recast, Clause.recast, gains.recast_eq drops]
  | _, _, .otherwise gains, drops => by rw [Clause.recast, Clause.recast, gains.recast_eq drops]

theorem Clause.GainsAmong.recast_eq : ∀ {before after : List Clause},
    Clause.GainsAmong comment before after → recasting.comment comment = none →
      Clause.recastAll recasting after = Clause.recastAll recasting before
  | _, _, .inside gains, drops => by rw [Clause.recastAll, Clause.recastAll, gains.recast_eq drops]
  | _, _, .behind gains, drops => by rw [Clause.recastAll, Clause.recastAll, gains.recast_eq drops]

theorem Statement.Gains.recast_eq : ∀ {before after : Statement},
    Statement.Gains comment before after → recasting.comment comment = none →
      Statement.recast recasting after = Statement.recast recasting before
  | _, _, .targets gains, drops => by rw [Statement.recast, Statement.recast, gains.recast_eq drops]
  | _, _, .values gains, drops => by rw [Statement.recast, Statement.recast, gains.recast_eq drops]
  | _, _, .call gains, drops => by rw [Statement.recast, Statement.recast, gains.recast_eq drops]
  | _, _, .doBlock gains, drops => by rw [Statement.recast, Statement.recast, gains.recast_eq drops]
  | _, _, .iterators gains, drops => by
    rw [Statement.recast, Statement.recast, gains.recast_eq drops]
  | _, _, .genericFor gains, drops => by
    rw [Statement.recast, Statement.recast, gains.recast_eq drops]
  | _, _, .first gains, drops => by rw [Statement.recast, Statement.recast, gains.recast_eq drops]
  | _, _, .last gains, drops => by rw [Statement.recast, Statement.recast, gains.recast_eq drops]
  | _, _, .step gains, drops => by
    rw [Statement.recast, Statement.recast, Expression.recastOptional, Expression.recastOptional,
      gains.recast_eq drops]
  | _, _, .numericFor gains, drops => by
    rw [Statement.recast, Statement.recast, gains.recast_eq drops]
  | _, _, .function gains, drops => by
    rw [Statement.recast, Statement.recast, gains.recast_eq drops]
  | _, _, .ifElse gains, drops => by rw [Statement.recast, Statement.recast, gains.recast_eq drops]
  | _, _, .localVariables gains, drops => by
    rw [Statement.recast, Statement.recast, gains.recast_eq drops]
  | _, _, .repeatUntil gains, drops => by
    rw [Statement.recast, Statement.recast, gains.recast_eq drops]
  | _, _, .repeatCondition gains, drops => by
    rw [Statement.recast, Statement.recast, gains.recast_eq drops]
  | _, _, .returnValues gains, drops => by
    rw [Statement.recast, Statement.recast, gains.recast_eq drops]
  | _, _, .whileCondition gains, drops => by
    rw [Statement.recast, Statement.recast, gains.recast_eq drops]
  | _, _, .whileLoop gains, drops => by
    rw [Statement.recast, Statement.recast, gains.recast_eq drops]

theorem Statement.GainsAmong.recast_eq : ∀ {before after : List Statement},
    Statement.GainsAmong comment before after → recasting.comment comment = none →
      Statement.recastAll recasting after = Statement.recastAll recasting before
  | _, _, .here, drops => by
    rw [Statement.recastAll, Statement.recast, drops]
    rfl
  | _, _, .inside gains, drops => by
    rw [Statement.recastAll, Statement.recastAll, gains.recast_eq drops]
  | _, _, .behind gains, drops => by
    rw [Statement.recastAll, Statement.recastAll, gains.recast_eq drops]

end

end

section

variable {comment : Comment} (remark : Comment)

mutual

/-- The comment is there once more, and the others are there as often. -/
theorem Expression.Gains.count_eq : ∀ {before after : Expression},
    Expression.Gains comment before after → Node.count remark (Expression.nodes after) =
      Node.count remark (Expression.nodes before) + [comment].count remark
  | _, _, .binaryLeft gains => by
    simp only [Expression.nodes, Node.count_cons, Node.count_append, Node.comments, gains.count_eq]
    omega
  | _, _, .binaryRight gains => by
    simp only [Expression.nodes, Node.count_cons, Node.count_append, Node.comments, gains.count_eq]
    omega
  | _, _, .unary gains => by
    simp only [Expression.nodes, Node.count_cons, Node.comments, gains.count_eq]
    omega
  | _, _, .callBase gains => by
    simp only [Expression.nodes, Node.count_cons, Node.count_append, Node.comments, gains.count_eq]
    omega
  | _, _, .callArguments gains => by
    simp only [Expression.nodes, Node.count_cons, Node.count_append, Node.comments, gains.count_eq]
    omega
  | _, _, .stringCall gains => by
    simp only [Expression.nodes, Node.count_cons, Node.comments, gains.count_eq]
    omega
  | _, _, .tableCallBase gains => by
    simp only [Expression.nodes, Node.count_cons, Node.count_append, Node.comments, gains.count_eq]
    omega
  | _, _, .tableCallFields gains => by
    simp only [Expression.nodes, Node.count_cons, Node.count_append, Node.comments, gains.count_eq]
    omega
  | _, _, .function gains => by
    simp only [Expression.nodes, Node.count_cons, Node.comments, gains.count_eq]
    omega
  | _, _, .group gains => by
    simp only [Expression.nodes, Node.count_cons, Node.comments, gains.count_eq]
    omega
  | _, _, .indexBase gains => by
    simp only [Expression.nodes, Node.count_cons, Node.count_append, Node.comments, gains.count_eq]
    omega
  | _, _, .indexKey gains => by
    simp only [Expression.nodes, Node.count_cons, Node.count_append, Node.comments, gains.count_eq]
    omega
  | _, _, .member gains => by
    simp only [Expression.nodes, Node.count_cons, Node.comments, gains.count_eq]
    omega
  | _, _, .table gains => by
    simp only [Expression.nodes, Node.count_cons, Node.comments, gains.count_eq]
    omega

theorem Expression.GainsAmong.count_eq : ∀ {before after : List Expression},
    Expression.GainsAmong comment before after → Node.count remark (Expression.nodesOfAll after) =
      Node.count remark (Expression.nodesOfAll before) + [comment].count remark
  | _, _, .inside gains => by
    simp only [Expression.nodesOfAll, Node.count_append, gains.count_eq]
    omega
  | _, _, .behind gains => by
    simp only [Expression.nodesOfAll, Node.count_append, gains.count_eq]
    omega

theorem Field.Gains.count_eq : ∀ {before after : Field},
    Field.Gains comment before after → Node.count remark (Field.nodes after) =
      Node.count remark (Field.nodes before) + [comment].count remark
  | _, _, .key gains => by
    simp only [Field.nodes, Node.count_cons, Node.count_append, Node.comments, gains.count_eq]
    omega
  | _, _, .keyedValue gains => by
    simp only [Field.nodes, Node.count_cons, Node.count_append, Node.comments, gains.count_eq]
    omega
  | _, _, .namedValue gains => by
    simp only [Field.nodes, Node.count_cons, Node.comments, gains.count_eq]
    omega
  | _, _, .positional gains => by
    simp only [Field.nodes, Node.count_cons, Node.comments, gains.count_eq]
    omega

theorem Field.GainsAmong.count_eq : ∀ {before after : List Field},
    Field.GainsAmong comment before after → Node.count remark (Field.nodesOfAll after) =
      Node.count remark (Field.nodesOfAll before) + [comment].count remark
  | _, _, .here => by
    simp only [Field.nodesOfAll, Field.nodes, Node.count_cons, Node.comments, List.cons_append,
      List.nil_append]
    omega
  | _, _, .inside gains => by
    simp only [Field.nodesOfAll, Node.count_append, gains.count_eq]
    omega
  | _, _, .behind gains => by
    simp only [Field.nodesOfAll, Node.count_append, gains.count_eq]
    omega

theorem Clause.Gains.count_eq : ∀ {before after : Clause},
    Clause.Gains comment before after → Node.count remark (Clause.nodes after) =
      Node.count remark (Clause.nodes before) + [comment].count remark
  | _, _, .condition gains => by
    simp only [Clause.nodes, Node.count_cons, Node.count_append, Node.comments, gains.count_eq]
    omega
  | _, _, .guarded gains => by
    simp only [Clause.nodes, Node.count_cons, Node.count_append, Node.comments, gains.count_eq]
    omega
  | _, _, .otherwise gains => by
    simp only [Clause.nodes, Node.count_cons, Node.comments, gains.count_eq]
    omega

theorem Clause.GainsAmong.count_eq : ∀ {before after : List Clause},
    Clause.GainsAmong comment before after → Node.count remark (Clause.nodesOfAll after) =
      Node.count remark (Clause.nodesOfAll before) + [comment].count remark
  | _, _, .inside gains => by
    simp only [Clause.nodesOfAll, Node.count_append, gains.count_eq]
    omega
  | _, _, .behind gains => by
    simp only [Clause.nodesOfAll, Node.count_append, gains.count_eq]
    omega

theorem Statement.Gains.count_eq : ∀ {before after : Statement},
    Statement.Gains comment before after → Node.count remark (Statement.nodes after) =
      Node.count remark (Statement.nodes before) + [comment].count remark
  | _, _, .targets gains => by
    simp only [Statement.nodes, Node.count_cons, Node.count_append, Node.comments, gains.count_eq]
    omega
  | _, _, .values gains => by
    simp only [Statement.nodes, Node.count_cons, Node.count_append, Node.comments, gains.count_eq]
    omega
  | _, _, .call gains => by
    simp only [Statement.nodes, Node.count_cons, Node.comments, gains.count_eq]
    omega
  | _, _, .doBlock gains => by
    simp only [Statement.nodes, Node.count_cons, Node.comments, gains.count_eq]
    omega
  | _, _, .iterators gains => by
    simp only [Statement.nodes, Node.count_cons, Node.count_append, Node.comments, gains.count_eq]
    omega
  | _, _, .genericFor gains => by
    simp only [Statement.nodes, Node.count_cons, Node.count_append, Node.comments, gains.count_eq]
    omega
  | _, _, .first gains => by
    simp only [Statement.nodes, Node.count_cons, Node.count_append, Node.comments, gains.count_eq]
    omega
  | _, _, .last gains => by
    simp only [Statement.nodes, Node.count_cons, Node.count_append, Node.comments, gains.count_eq]
    omega
  | _, _, .step gains => by
    simp only [Statement.nodes, Node.count_cons, Node.count_append, Node.comments,
      Expression.nodesOfOptional, gains.count_eq]
    omega
  | _, _, .numericFor gains => by
    simp only [Statement.nodes, Node.count_cons, Node.count_append, Node.comments, gains.count_eq]
    omega
  | _, _, .function gains => by
    simp only [Statement.nodes, Node.count_cons, Node.comments, gains.count_eq]
    omega
  | _, _, .ifElse gains => by
    simp only [Statement.nodes, Node.count_cons, Node.comments, gains.count_eq]
    omega
  | _, _, .localVariables gains => by
    simp only [Statement.nodes, Node.count_cons, Node.comments, gains.count_eq]
    omega
  | _, _, .repeatUntil gains => by
    simp only [Statement.nodes, Node.count_cons, Node.count_append, Node.comments, gains.count_eq]
    omega
  | _, _, .repeatCondition gains => by
    simp only [Statement.nodes, Node.count_cons, Node.count_append, Node.comments, gains.count_eq]
    omega
  | _, _, .returnValues gains => by
    simp only [Statement.nodes, Node.count_cons, Node.comments, gains.count_eq]
    omega
  | _, _, .whileCondition gains => by
    simp only [Statement.nodes, Node.count_cons, Node.count_append, Node.comments, gains.count_eq]
    omega
  | _, _, .whileLoop gains => by
    simp only [Statement.nodes, Node.count_cons, Node.count_append, Node.comments, gains.count_eq]
    omega

theorem Statement.GainsAmong.count_eq : ∀ {before after : List Statement},
    Statement.GainsAmong comment before after → Node.count remark (Statement.nodesOfAll after) =
      Node.count remark (Statement.nodesOfAll before) + [comment].count remark
  | _, _, .here => by
    simp only [Statement.nodesOfAll, Statement.nodes, Node.count_cons, Node.comments,
      List.cons_append, List.nil_append]
    omega
  | _, _, .inside gains => by
    simp only [Statement.nodesOfAll, Node.count_append, gains.count_eq]
    omega
  | _, _, .behind gains => by
    simp only [Statement.nodesOfAll, Node.count_append, gains.count_eq]
    omega

end

end

end LuaStyle
