/-
This file proves that operators and operands leave one tree to be read.

The operands between two cursors, the marks in front of them and the operators between them do not
depend on how they are grouped: each is where the parser finds it behind the one before. So two
trees over the same stretch of tokens have the same operators in the same places, and what remains
to be shown is that these have the same one at the top. An operator in the left operand of another
has at least the power on its right that the other has on its left, and an operator in the right
operand of another has a higher power on its left than the other has on its right. Two operators
cannot each be below the other, and neither can a mark and an operator behind it.

A tree that stands as the powers ask for is also the one that is returned, if the tokens behind it
leave it alone. The limit alone does not see to that where it is higher than what a mark or an
operator inside the tree asks of what follows, and it never sees to it where the tokens behind the
tree go on its last operand.
-/

import LuaStyle.Proofs.Climbing
import LuaStyle.Proofs.CommentTokens
import LuaStyle.Parser.Program

namespace LuaStyle

namespace Grammar

/-! ### Operators between operands -/

/-- From one cursor to the other there are operands, as the parser reads them, with marks in front
of them and operators between them. The list has the operators, each with the cursor in front of
it. -/
inductive Joints : Cursor → Cursor → List (BinaryOperator × Cursor) → Prop
  | last {expression cursor rest} :
    expression.isOperation = false → Returns (operand cursor) expression rest →
      Joints cursor rest []
  | mark {operator : UnaryOperator} {mark cursor afterMark rest joints} :
    cursor.Steps [mark] afterMark → mark.kind = operator.token → Joints afterMark rest joints →
      Joints cursor rest joints
  | join {expression} {operator : BinaryOperator} {mark cursor joint afterMark rest joints} :
    expression.isOperation = false → Returns (operand cursor) expression joint →
      joint.Steps [mark] afterMark → mark.kind = operator.token → Joints afterMark rest joints →
      Joints cursor rest ((operator, joint) :: joints)

theorem Returns.unique {bound : Nat} {Value : Type} {run : Except ParseError (Parsed bound Value)}
    {first second : Value} {firstRest secondRest : Cursor} (one : Returns run first firstRest)
    (other : Returns run second secondRest) : first = second ∧ firstRest = secondRest := by
  obtain ⟨_, rfl⟩ := one
  obtain ⟨_, same⟩ := other
  cases same
  exact ⟨rfl, rfl⟩

/-- A token leads to one place. -/
theorem Steps.unique {cursor first second : Cursor} {token other : Token}
    (one : cursor.Steps [token] first) (another : cursor.Steps [other] second) :
    token = other ∧ first = second := by
  obtain ⟨_, found⟩ := one.next?_eq
  obtain ⟨_, same⟩ := another.next?_eq
  rw [found] at same
  cases same
  exact ⟨rfl, rfl⟩

/-- What is read behind a mark is an operation. -/
theorem isOperation_of_mark {cursor afterMark rest : Cursor} {mark : Token}
    {operator : UnaryOperator} {expression : Expression} (step : cursor.Steps [mark] afterMark)
    (kind : mark.kind = operator.token) (returns : Returns (operand cursor) expression rest) :
    expression.isOperation := by
  obtain ⟨within, found⟩ := returns
  obtain ⟨_, next⟩ := step.next?_eq
  rw [operand, next] at found
  dsimp only at found
  rw [kind, ofToken?_unary] at found
  obtain ⟨_, _, same⟩ := bind_eq_ok.1 found
  cases same
  rfl

theorem Joints.size_lt {cursor rest : Cursor} {joints : List (BinaryOperator × Cursor)}
    (between : Joints cursor rest joints) : rest.size < cursor.size := by
  induction between with
  | last _ returns => exact returns.1
  | mark step _ _ inductionHypothesis => exact Nat.lt_trans inductionHypothesis step.size_lt
  | join _ returns step _ _ inductionHypothesis =>
    exact Nat.lt_trans inductionHypothesis (Nat.lt_trans step.size_lt returns.1)

/-- The operators between two cursors are always the same. -/
theorem Joints.unique {cursor rest : Cursor} {joints others : List (BinaryOperator × Cursor)}
    (between : Joints cursor rest joints) (also : Joints cursor rest others) : joints = others := by
  induction between generalizing others with
  | last plain returns =>
    cases also with
    | last => rfl
    | mark step kind => rw [isOperation_of_mark step kind returns] at plain; cases plain
    | join _ otherReturns step _ further =>
      obtain ⟨rfl, rfl⟩ := returns.unique otherReturns
      exact absurd (Nat.lt_trans further.size_lt step.size_lt) (Nat.lt_irrefl _)
  | mark step kind _ inductionHypothesis =>
    cases also with
    | last plain returns => rw [isOperation_of_mark step kind returns] at plain; cases plain
    | mark otherStep _ further =>
      obtain ⟨rfl, rfl⟩ := Steps.unique step otherStep
      exact inductionHypothesis further
    | join plain returns => rw [isOperation_of_mark step kind returns] at plain; cases plain
  | join plain returns step kind further inductionHypothesis =>
    cases also with
    | last _ otherReturns =>
      obtain ⟨rfl, rfl⟩ := returns.unique otherReturns
      exact absurd (Nat.lt_trans further.size_lt step.size_lt) (Nat.lt_irrefl _)
    | mark step kind => rw [isOperation_of_mark step kind returns] at plain; cases plain
    | join _ otherReturns otherStep otherKind otherFurther =>
      obtain ⟨rfl, rfl⟩ := returns.unique otherReturns
      obtain ⟨rfl, rfl⟩ := Steps.unique step otherStep
      have same := (ofToken?_binary _).symm.trans
        ((congrArg BinaryOperator.ofToken? (kind.symm.trans otherKind)).trans (ofToken?_binary _))
      cases same
      rw [inductionHypothesis otherFurther]

/-- Two stretches with an operator between them are one. -/
theorem Joints.append {cursor joint afterMark rest : Cursor} {mark : Token}
    {operator : BinaryOperator} {joints further : List (BinaryOperator × Cursor)}
    (before : Joints cursor joint joints) (step : joint.Steps [mark] afterMark)
    (kind : mark.kind = operator.token) (behind : Joints afterMark rest further) :
    Joints cursor rest (joints ++ (operator, joint) :: further) := by
  induction before with
  | last plain returns => exact .join plain returns step kind behind
  | mark markStep markKind _ inductionHypothesis =>
    exact .mark markStep markKind (inductionHypothesis step)
  | join plain returns markStep markKind _ inductionHypothesis =>
    exact .join plain returns markStep markKind (inductionHypothesis step)

/-! ### The powers of the operators in a tree -/

theorem BinaryOperator.rightPower_le_leftPower (operator : BinaryOperator) :
    operator.rightPower ≤ operator.leftPower := by
  cases operator <;> decide

theorem BinaryOperator.leftPower_le_succ_rightPower (operator : BinaryOperator) :
    operator.leftPower ≤ operator.rightPower + 1 := by
  cases operator <;> decide

theorem BinaryOperator.leftPower_ne_nine (operator : BinaryOperator) : operator.leftPower ≠ 9 := by
  cases operator <;> decide

/-- The operators between the operands of a tree bind as tightly as its edges ask for: tighter than
a limit on its left edge, unless a mark stands before them, and at least as tightly as what its
right edge holds on to. -/
structure Bind (expression : Expression) (joints : List (BinaryOperator × Cursor)) : Prop where
  above : ∀ limit, expression.OpensAbove limit →
    ∀ joint ∈ joints, min limit UnaryOperator.bindingPower < joint.1.leftPower
  least : ∀ power, expression.ClosesAt power → ∀ joint ∈ joints, power ≤ joint.1.rightPower

theorem Operates.exists_joints {expression : Expression} {cursor rest : Cursor}
    (operates : Operates expression cursor rest) (grouped : Node.AreGrouped expression.nodes) :
    ∃ joints, Joints cursor rest joints ∧ Bind expression joints := by
  induction operates with
  | operand plain returns =>
    exact ⟨[], .last plain returns, fun _ _ => List.forall_mem_nil _,
      fun _ _ => List.forall_mem_nil _⟩
  | unary step kind _ inductionHypothesis =>
    obtain ⟨opens, inner⟩ := Node.areGrouped_cons.1 grouped
    obtain ⟨joints, between, binds⟩ := inductionHypothesis inner
    refine ⟨joints, .mark step kind between, fun limit _ joint member => ?_,
      fun power closes => binds.least power closes.2⟩
    have tighter := binds.above _ opens joint member
    rw [Nat.min_self] at tighter
    exact Nat.lt_of_le_of_lt (Nat.min_le_right ..) tighter
  | @binary operator left right _ _ _ _ _ _ step kind _ leftHypothesis rightHypothesis =>
    obtain ⟨⟨leftCloses, rightOpens⟩, inner⟩ := Node.areGrouped_cons.1 grouped
    obtain ⟨leftGrouped, rightGrouped⟩ := Node.areGrouped_append.1 inner
    obtain ⟨before, leftBetween, leftBinds⟩ := leftHypothesis leftGrouped
    obtain ⟨behind, rightBetween, rightBinds⟩ := rightHypothesis rightGrouped
    have lower := BinaryOperator.rightPower_le_leftPower operator
    have near := BinaryOperator.leftPower_le_succ_rightPower operator
    refine ⟨_, leftBetween.append step kind rightBetween, fun limit opens => ?_,
      fun power closes => ?_⟩
    · refine List.forall_mem_append.2 ⟨leftBinds.above limit opens.2, List.forall_mem_cons.2
        ⟨Nat.lt_of_le_of_lt (Nat.min_le_left ..) opens.1, fun joint member => ?_⟩⟩
      have tighter := rightBinds.above _ rightOpens joint member
      have above := opens.1
      omega
    · refine List.forall_mem_append.2 ⟨fun joint member => ?_, List.forall_mem_cons.2
        ⟨closes.1, rightBinds.least power closes.2⟩⟩
      have holds := leftBinds.least _ leftCloses joint member
      have least := closes.1
      omega

/-- Behind a mark, the right edge of a tree holds on to no more than the mark does. -/
theorem Operates.power_le_of_mark {expression : Expression} {cursor rest : Cursor}
    (operates : Operates expression cursor rest) (grouped : Node.AreGrouped expression.nodes)
    {mark : Token} {afterMark : Cursor} {sign : UnaryOperator}
    (step : cursor.Steps [mark] afterMark) (kind : mark.kind = sign.token) {power : Nat}
    (closes : expression.ClosesAt power) : power ≤ UnaryOperator.bindingPower := by
  induction operates generalizing power with
  | operand plain returns =>
    rw [isOperation_of_mark step kind returns] at plain
    cases plain
  | unary => exact closes.1
  | @binary operator _ _ _ _ _ _ _ _ _ _ _ leftHypothesis _ =>
    obtain ⟨⟨leftCloses, -⟩, inner⟩ := Node.areGrouped_cons.1 grouped
    have low := leftHypothesis (Node.areGrouped_append.1 inner).1 step leftCloses
    have lower := BinaryOperator.rightPower_le_leftPower operator
    have least := closes.1
    omega

/-- An operator in the left operand of another is not one that has the other in its right
operand. -/
theorem Bind.not_below_each_other {left right : Expression}
    {before behind : List (BinaryOperator × Cursor)} (leftBinds : Bind left before)
    (rightBinds : Bind right behind) {earlier later : BinaryOperator} {joint other : Cursor}
    (leftCloses : left.ClosesAt later.leftPower) (rightOpens : right.OpensAbove earlier.rightPower)
    (inLeft : (earlier, joint) ∈ before) (inRight : (later, other) ∈ behind) : False := by
  have holds : later.leftPower ≤ earlier.rightPower := leftBinds.least _ leftCloses _ inLeft
  have tighter : min earlier.rightPower UnaryOperator.bindingPower < later.leftPower :=
    rightBinds.above _ rightOpens _ inRight
  have bounded := BinaryOperator.rightPower_le_nine earlier
  have noNine := BinaryOperator.leftPower_ne_nine later
  have eight : UnaryOperator.bindingPower = 8 := rfl
  omega

/-- A list is cut at the same item twice if neither cut leaves its item in front of the other. -/
theorem eq_of_append_cons_eq {Item : Type} {top other : Item}
    {before behind ahead after : List Item}
    (same : before ++ top :: behind = ahead ++ other :: after)
    (notEarlier : top ∈ ahead → other ∈ behind → False)
    (notLater : other ∈ before → top ∈ after → False) : top = other := by
  rcases List.append_eq_append_iff.1 same with ⟨gap, rfl, behindSame⟩ | ⟨gap, rfl, afterSame⟩
  · cases gap with
    | nil => exact (List.cons.inj behindSame).1
    | cons first gap =>
      cases behindSame
      exact (notEarlier (List.mem_append_right _ List.mem_cons_self)
        (List.mem_append_right _ List.mem_cons_self)).elim
  · cases gap with
    | nil => exact (List.cons.inj afterSame).1.symm
    | cons first gap =>
      cases afterSame
      exact (notLater (List.mem_append_right _ List.mem_cons_self)
        (List.mem_append_right _ List.mem_cons_self)).elim

/-! ### One tree over a stretch of tokens -/

section

variable {first second : Expression} {cursor afterMark rest : Cursor} {mark : Token}

/-- A tree with a mark in front of it is not one with an operator at the top. -/
theorem not_mark_and_join {sign : UnaryOperator} {argument left right : Expression}
    {operator : BinaryOperator} {joint afterJoint : Cursor} {joiner : Token}
    (step : cursor.Steps [mark] afterMark) (kind : mark.kind = sign.token)
    (operates : Operates argument afterMark rest) (grouped : Node.AreGrouped argument.nodes)
    (opens : argument.OpensAbove UnaryOperator.bindingPower)
    (leftOperates : Operates left cursor joint) (leftGrouped : Node.AreGrouped left.nodes)
    (leftCloses : left.ClosesAt operator.leftPower)
    (joinStep : joint.Steps [joiner] afterJoint) (joinKind : joiner.kind = operator.token)
    (rightOperates : Operates right afterJoint rest) (rightGrouped : Node.AreGrouped right.nodes) :
    False := by
  obtain ⟨joints, between, binds⟩ := operates.exists_joints grouped
  obtain ⟨before, leftBetween, -⟩ := leftOperates.exists_joints leftGrouped
  obtain ⟨behind, rightBetween, -⟩ := rightOperates.exists_joints rightGrouped
  have same := (Joints.mark step kind between).unique
    (leftBetween.append joinStep joinKind rightBetween)
  have member : (operator, joint) ∈ joints := by
    rw [same]
    exact List.mem_append_right _ List.mem_cons_self
  have tighter := binds.above _ opens _ member
  rw [Nat.min_self] at tighter
  exact Nat.not_le_of_lt tighter (leftOperates.power_le_of_mark leftGrouped step kind leftCloses)

/-- Two trees over the same stretch of tokens are the same if their operators stand as their powers
ask for. -/
theorem Operates.unique (one : Operates first cursor rest) (grouped : Node.AreGrouped first.nodes)
    (another : Operates second cursor rest) (alsoGrouped : Node.AreGrouped second.nodes) :
    first = second := by
  induction one generalizing second with
  | operand plain returns =>
    cases another with
    | operand _ otherReturns => exact (returns.unique otherReturns).1
    | unary step kind =>
      rw [isOperation_of_mark step kind returns] at plain
      cases plain
    | binary leftOperates step kind rightOperates =>
      obtain ⟨-, inner⟩ := Node.areGrouped_cons.1 alsoGrouped
      obtain ⟨leftGrouped, rightGrouped⟩ := Node.areGrouped_append.1 inner
      obtain ⟨before, leftBetween, -⟩ := leftOperates.exists_joints leftGrouped
      obtain ⟨behind, rightBetween, -⟩ := rightOperates.exists_joints rightGrouped
      have same := (Joints.last plain returns).unique (leftBetween.append step kind rightBetween)
      exact absurd same.symm (List.append_ne_nil_of_right_ne_nil before (List.cons_ne_nil _ _))
  | unary step kind operates inductionHypothesis =>
    obtain ⟨opens, inner⟩ := Node.areGrouped_cons.1 grouped
    cases another with
    | operand plain returns =>
      rw [isOperation_of_mark step kind returns] at plain
      cases plain
    | unary otherStep otherKind otherOperates =>
      obtain ⟨rfl, rfl⟩ := Steps.unique step otherStep
      have sameSign := (ofToken?_unary _).symm.trans
        ((congrArg UnaryOperator.ofToken? (kind.symm.trans otherKind)).trans (ofToken?_unary _))
      cases sameSign
      rw [inductionHypothesis inner otherOperates (Node.areGrouped_cons.1 alsoGrouped).2]
    | binary leftOperates joinStep joinKind rightOperates =>
      obtain ⟨⟨leftCloses, -⟩, others⟩ := Node.areGrouped_cons.1 alsoGrouped
      obtain ⟨leftGrouped, rightGrouped⟩ := Node.areGrouped_append.1 others
      exact (not_mark_and_join step kind operates inner opens leftOperates leftGrouped leftCloses
        joinStep joinKind rightOperates rightGrouped).elim
  | binary leftOperates joinStep joinKind rightOperates leftHypothesis rightHypothesis =>
    obtain ⟨⟨leftCloses, rightOpens⟩, others⟩ := Node.areGrouped_cons.1 grouped
    obtain ⟨leftGrouped, rightGrouped⟩ := Node.areGrouped_append.1 others
    obtain ⟨before, leftBetween, leftBinds⟩ := leftOperates.exists_joints leftGrouped
    obtain ⟨behind, rightBetween, rightBinds⟩ := rightOperates.exists_joints rightGrouped
    have joints := leftBetween.append joinStep joinKind rightBetween
    cases another with
    | operand plain returns =>
      have same := joints.unique (.last plain returns)
      exact absurd same (List.append_ne_nil_of_right_ne_nil before (List.cons_ne_nil _ _))
    | unary step kind operates =>
      obtain ⟨opens, inner⟩ := Node.areGrouped_cons.1 alsoGrouped
      exact (not_mark_and_join step kind operates inner opens leftOperates leftGrouped leftCloses
        joinStep joinKind rightOperates rightGrouped).elim
    | binary otherLeft otherStep otherKind otherRight =>
      obtain ⟨⟨otherCloses, otherOpens⟩, otherInner⟩ := Node.areGrouped_cons.1 alsoGrouped
      obtain ⟨otherLeftGrouped, otherRightGrouped⟩ := Node.areGrouped_append.1 otherInner
      obtain ⟨ahead, aheadBetween, aheadBinds⟩ := otherLeft.exists_joints otherLeftGrouped
      obtain ⟨after, afterBetween, afterBinds⟩ := otherRight.exists_joints otherRightGrouped
      have same := joints.unique (aheadBetween.append otherStep otherKind afterBetween)
      cases eq_of_append_cons_eq same
        (aheadBinds.not_below_each_other rightBinds otherCloses rightOpens)
        (leftBinds.not_below_each_other afterBinds leftCloses otherOpens)
      obtain ⟨rfl, rfl⟩ := Steps.unique joinStep otherStep
      rw [leftHypothesis leftGrouped otherLeft otherLeftGrouped,
        rightHypothesis rightGrouped otherRight otherRightGrouped]

end

/-! ### The tree that is read -/

/-- The tokens from one cursor to the other are those of the expression. -/
inductive Spells (expression : Expression) (cursor rest : Cursor) : Prop
  /-- It is a tree over the operators and operands that the parser reads in them. -/
  | operands : Operates expression cursor rest → Spells expression cursor rest
  /-- It is strictly read from them, which are no comments, and nothing goes on it behind them. -/
  | tokens {tokens : List Token} : cursor.Steps tokens rest → expression.Reads true tokens →
    (∀ token ∈ tokens, token.kind ≠ .comment) → goesOn rest.kind = false →
      Spells expression cursor rest

theorem BinaryOperator.leftPower_le_ten (operator : BinaryOperator) : operator.leftPower ≤ 10 := by
  cases operator <;> decide

/-- What is no operation and strictly read from the tokens is read from them as an operand. -/
theorem operates_of_not_isOperation {expression : Expression} {cursor rest : Cursor}
    {tokens : List Token} (plain : expression.isOperation = false)
    (steps : cursor.Steps tokens rest) (reads : expression.Reads true tokens)
    (grouped : Node.AreGrouped expression.nodes)
    (bare : ∀ node ∈ expression.nodes, node.comments = []) (stops : goesOn rest.kind = false) :
    Operates expression cursor rest := by
  have found : Found expression :=
    found_expression expression fun node member => ⟨grouped node member, bare node member⟩
  have returns : Returns (Grammar.expression 10 cursor) expression rest :=
    found.operand reads steps stops (Expression.opensAbove_of_not_isOperation plain 10)
      (fun _ _ => Expression.closesAt_of_not_isOperation plain _)
      (operators_returns expression fun operator _ => BinaryOperator.leftPower_le_ten operator)
  obtain ⟨within, returned⟩ := returns
  exact (operating cursor).expression 10 _ returned

/-- What is strictly read from the tokens is a tree over operators and operands. -/
theorem operates_of_reads :
    ∀ (expression : Expression) {cursor rest : Cursor} {tokens : List Token},
      cursor.Steps tokens rest → expression.Reads true tokens → Node.AreGrouped expression.nodes →
      (∀ node ∈ expression.nodes, node.comments = []) → goesOn rest.kind = false →
        Operates expression cursor rest
  | .binary operator left right span, cursor, rest, tokens, steps, reads, grouped, bare, stops => by
    cases reads with
    | binary leftReads kind rightReads =>
      obtain ⟨leftGrouped, rightGrouped⟩ :=
        Node.areGrouped_append.1 (Node.areGrouped_cons.1 grouped).2
      obtain ⟨leftBare, rightBare⟩ := List.forall_mem_append.1 (List.forall_mem_cons.1 bare).2
      obtain ⟨afterLeft, leftSteps, steps⟩ := steps.split
      have follows : afterLeft.kind = operator.token := steps.kind_eq.trans kind
      obtain ⟨afterMark, markStep, rightSteps⟩ := steps.split_cons
      have leftStops : goesOn afterLeft.kind = false := by
        rw [follows]
        cases operator <;> rfl
      exact .binary (operates_of_reads left leftSteps leftReads leftGrouped leftBare leftStops)
        markStep kind (operates_of_reads right rightSteps rightReads rightGrouped rightBare stops)
  | .unary operator argument span, cursor, rest, tokens, steps, reads, grouped, bare, stops => by
    cases reads with
    | unary kind argumentReads =>
      obtain ⟨afterMark, markStep, steps⟩ := steps.split_cons
      exact .unary markStep kind (operates_of_reads argument steps argumentReads
        (Node.areGrouped_cons.1 grouped).2 (List.forall_mem_cons.1 bare).2 stops)
  | .literal _, _, _, _, steps, reads, grouped, bare, stops
  | .name _, _, _, _, steps, reads, grouped, bare, stops
  | .group .., _, _, _, steps, reads, grouped, bare, stops
  | .call .., _, _, _, steps, reads, grouped, bare, stops
  | .stringCall .., _, _, _, steps, reads, grouped, bare, stops
  | .tableCall .., _, _, _, steps, reads, grouped, bare, stops
  | .function .., _, _, _, steps, reads, grouped, bare, stops
  | .index .., _, _, _, steps, reads, grouped, bare, stops
  | .member .., _, _, _, steps, reads, grouped, bare, stops
  | .table .., _, _, _, steps, reads, grouped, bare, stops =>
    operates_of_not_isOperation rfl steps reads grouped bare stops

/-- What is read from tokens without comments has no comments in it. -/
theorem bare_of_reads {strict : Bool} {expression : Expression} {tokens : List Token}
    (reads : expression.Reads strict tokens) (code : ∀ token ∈ tokens, token.kind ≠ .comment) :
    ∀ node ∈ expression.nodes, node.comments = [] := by
  have none : tokens.filter (·.kind == .comment) = [] :=
    List.filter_eq_nil_iff.2 fun token member is => code token member (beq_iff_eq.1 is)
  have same : Node.commentsAmong expression.nodes = Token.comments tokens :=
    Expression.Reads.commentsFrom expression (.inl reads)
  rw [Token.comments, none, List.map_nil] at same
  exact List.flatMap_eq_nil_iff.1 same

/-- Either way it is a tree over operators and operands. -/
theorem Spells.operates {expression : Expression} {cursor rest : Cursor}
    (spells : Spells expression cursor rest) (grouped : Node.AreGrouped expression.nodes) :
    Operates expression cursor rest := by
  cases spells with
  | operands operates => exact operates
  | tokens steps reads code stops =>
    exact operates_of_reads expression steps reads grouped (bare_of_reads reads code) stops

/-- A tree that stands as the powers ask for is returned. A limit that no operator exceeds asks
nothing of what follows, so with such a limit the tree has to be complete. -/
theorem Spells.returns {expression : Expression} {cursor rest : Cursor} {limit : Nat}
    (spells : Spells expression cursor rest) (climbs : Climbs limit expression rest)
    (complete : limit ≤ 9 ∨ BinaryOperator.ofToken? rest.kind = none) :
    Returns (Grammar.expression limit cursor) expression rest := by
  have givesWay : GivesWay expression rest := fun operator follows => by
    rcases complete with low | last
    · exact (climbs.givesWay low follows).2
    · rw [last] at follows
      cases follows
  exact (spells.operates climbs.grouped).resumes climbs.grouped climbs.opens givesWay
    (operators_returns expression climbs.ends)

/-- Reading an expression with a limit returns a tree over the tokens it uses whose operators stand
as their powers ask for. There is one such tree over a stretch of tokens, and it is returned, if the
limit is not above all right powers or no operator follows. -/
theorem expression_climbs (limit : Nat) (cursor : Cursor) :
    (∀ expression rest, Returns (Grammar.expression limit cursor) expression rest →
      (∃ tokens, cursor.Steps tokens rest ∧ expression.Reads false tokens) ∧
        Spells expression cursor rest ∧ Climbs limit expression rest) ∧
    (∀ expression rest, Spells expression cursor rest → Climbs limit expression rest →
      (∀ other, Spells other cursor rest → Climbs limit other rest → other = expression) ∧
        (limit ≤ 9 ∨ BinaryOperator.ofToken? rest.kind = none →
          Returns (Grammar.expression limit cursor) expression rest)) := by
  refine ⟨fun expression rest ⟨within, found⟩ => ⟨?_, ?_, ?_⟩,
    fun expression rest spells climbs => ⟨?_, spells.returns climbs⟩⟩
  · exact (accounted cursor).expression limit _ found
  · exact .operands ((operating cursor).expression limit _ found)
  · exact (climbing cursor).expression limit _ found
  · intro other otherSpells otherClimbs
    exact (otherSpells.operates otherClimbs.grouped).unique otherClimbs.grouped
      (spells.operates climbs.grouped) climbs.grouped

/-- A tree with powers, a product, a negation and a comparison, read with the right power of a
product. It is the only one over its tokens. -/
theorem expression_climbs_of_powers :
    ∃ expression rest,
      Returns (Grammar.expression 6 (Program.start "2 ^ -3 ^ 4 * (not a == b) .. c".toList))
          expression rest ∧ Climbs 6 expression rest ∧
        ∀ other, Spells other (Program.start "2 ^ -3 ^ 4 * (not a == b) .. c".toList) rest →
          Climbs 6 other rest → other = expression := by
  have succeeds : (Grammar.expression 6 (Program.start
      "2 ^ -3 ^ 4 * (not a == b) .. c".toList)).isOk := by
    decide +kernel
  generalize run : Grammar.expression 6 _ = answer at succeeds ⊢
  match answer with
  | .error _ => cases succeeds
  | .ok ⟨expression, rest, within⟩ =>
    have climbs := expression_climbs 6 (Program.start "2 ^ -3 ^ 4 * (not a == b) .. c".toList)
    obtain ⟨-, spells, stands⟩ := climbs.1 expression rest ⟨within, run⟩
    exact ⟨expression, rest, ⟨within, rfl⟩, stands, (climbs.2 expression rest spells stands).1⟩

/-- A tree that stands as the powers ask for need not be returned if what follows goes on with it. A
limit of ten lets a power follow a negation that would rather have it in its operand, and a name is
read on with a member of it, whatever the limit. -/
theorem not_returns_where_more_follows :
    (∃ expression rest tokens, (Program.start "-a^b".toList).Steps tokens rest ∧
        expression.Reads true tokens ∧ Spells expression (Program.start "-a^b".toList) rest ∧
        Climbs 10 expression rest ∧
        ¬ Returns (Grammar.expression 10 (Program.start "-a^b".toList)) expression rest) ∧
      ∃ expression rest tokens, (Program.start "a.b".toList).Steps tokens rest ∧
        expression.Reads true tokens ∧ Climbs 0 expression rest ∧
        ¬ Returns (Grammar.expression 0 (Program.start "a.b".toList)) expression rest := by
  constructor
  · have steps : (Program.start "-a^b".toList).Steps
        [⟨.symbol .minus, ['-'], 0⟩, ⟨.name, ['a'], 1⟩]
        ⟨[⟨.symbol .caret, ['^'], 2⟩, ⟨.name, ['b'], 3⟩], 2, 4⟩ :=
      ⟨by decide +kernel, by decide +kernel, by decide +kernel⟩
    have operand : Expression.Reads true (.name ⟨['a'], ⟨1, 2⟩⟩) [⟨.name, ['a'], 1⟩] :=
      .name ⟨rfl, rfl⟩
    have reads : Expression.Reads true (.unary .negate (.name ⟨['a'], ⟨1, 2⟩⟩) ⟨0, 2⟩)
        [⟨.symbol .minus, ['-'], 0⟩, ⟨.name, ['a'], 1⟩] :=
      @Expression.Reads.unary true .negate _ ⟨.symbol .minus, ['-'], 0⟩ _ rfl operand
    have grouped : Node.AreGrouped
        (Expression.unary .negate (.name ⟨['a'], ⟨1, 2⟩⟩) ⟨0, 2⟩).nodes :=
      Node.areGrouped_cons.2 ⟨trivial, List.forall_mem_singleton.2 trivial⟩
    refine ⟨_, _, _, steps, reads, .tokens steps reads (by decide) rfl,
      ⟨grouped, trivial, fun operator _ => BinaryOperator.leftPower_le_ten operator⟩, ?_⟩
    rintro ⟨_, returned⟩
    have used : (Grammar.expression 10 (Program.start "-a^b".toList)).toOption.map
        (fun parsed => parsed.rest.size) = some 0 := by decide +kernel
    rw [returned] at used
    cases used
  · have steps : (Program.start "a.b".toList).Steps [⟨.name, ['a'], 0⟩]
        ⟨[⟨.symbol .dot, ['.'], 1⟩, ⟨.name, ['b'], 2⟩], 1, 3⟩ :=
      ⟨by decide +kernel, by decide +kernel, by decide +kernel⟩
    have ends : EndsAt 0 ⟨[⟨.symbol .dot, ['.'], 1⟩, ⟨.name, ['b'], 2⟩], 1, 3⟩ := by
      intro operator follows
      cases follows
    refine ⟨.name ⟨['a'], ⟨0, 1⟩⟩, _, _, steps, .name ⟨rfl, rfl⟩,
      ⟨List.forall_mem_singleton.2 trivial, trivial, ends⟩, ?_⟩
    rintro ⟨_, returned⟩
    have used : (Grammar.expression 0 (Program.start "a.b".toList)).toOption.map
        (fun parsed => parsed.rest.size) = some 0 := by decide +kernel
    rw [returned] at used
    cases used

end Grammar

end LuaStyle
