/-
This file says which trees are trees of programs, and proves that the parser returns no others.

A tree can be built that no source is read as: a call of a number, an assignment to a sum, an `if`
statement without clauses. What is asked of a tree is asked of each of its nodes alone, of the
node's own names and literals and of the forms of its immediate parts. Neither spans nor comments
play a role, so a tree stays grammatical when its clauses are extended and comments are put into it.
-/

import LuaStyle.Proofs.Insertion
import LuaStyle.Proofs.NumberText
import LuaStyle.Proofs.Soundness

namespace LuaStyle

/-! ### Conditions on single nodes -/

/-- The expression selects a method, which is only done to call it. -/
def Expression.isMethod : Expression → Bool
  | member _ .colon _ _ => true
  | _ => false

/-- The name can be written. -/
def Name.IsGrammatical (name : Name) : Prop :=
  Token.IsName name.text

/-- The literal is written as what it stands for. Of a string nothing is asked, since it is written
from its bytes. -/
def Literal.IsGrammatical (constant : Literal) : Prop :=
  match constant.value with
  | .nil => constant.raw = Token.Keyword.nilWord.text
  | .boolean true => constant.raw = Token.Keyword.trueWord.text
  | .boolean false => constant.raw = Token.Keyword.falseWord.text
  | .vararg => constant.raw = Token.Symbol.dotDotDot.text
  | .number value => Token.IsNumber constant.raw ∧ Numeral.valueOf? constant.raw = some value
  | .string _ => True

/-- The literal is a string. -/
def Literal.isString (constant : Literal) : Bool :=
  match constant.value with
  | .string _ => true
  | _ => false

/-- Nothing is asked of a string. -/
theorem Literal.isGrammatical_of_isString {constant : Literal} (isString : constant.isString) :
    constant.IsGrammatical := by
  unfold Literal.isString at isString
  unfold Literal.IsGrammatical
  split at isString
  next same =>
    rw [same]
    trivial
  · cases isString

/-- The parameter can be written. -/
def Parameter.IsGrammatical : Parameter → Prop
  | name identifier => identifier.IsGrammatical
  | vararg _ => True

/-- Only the last parameter takes all remaining arguments. -/
def Parameter.areOrdered : List Parameter → Bool
  | [] => true
  | [_] => true
  | vararg _ :: _ => false
  | name _ :: rest => areOrdered rest

/-- The parameters can be written behind each other. -/
def Parameter.AreGrammatical (parameters : List Parameter) : Prop :=
  (∀ parameter ∈ parameters, parameter.IsGrammatical) ∧ areOrdered parameters

/-- The name of a function can be written. -/
def FunctionName.IsGrammatical (name : FunctionName) : Prop :=
  name.path ≠ [] ∧ (∀ part ∈ name.path, part.IsGrammatical) ∧
    ∀ method ∈ name.method, method.IsGrammatical

/-- The head of a function that is declared can be written. Only a single name can be local. -/
def FunctionHead.IsDeclaration : FunctionHead → Prop
  | ⟨some name, isLocal⟩ =>
    name.IsGrammatical ∧ (isLocal → name.path.length = 1 ∧ name.method = none)
  | ⟨none, _⟩ => False

/-- The clauses can follow the first one. -/
def Clause.areFurther : List Clause → Bool
  | [] => true
  | [otherwise ..] => true
  | guarded .elseifWord _ _ _ :: rest => areFurther rest
  | _ => false

/-- The clauses are those of an `if` statement. -/
def Clause.areGrammatical : List Clause → Bool
  | guarded .ifWord _ _ _ :: rest => areFurther rest
  | _ => false

/-- Only comments follow a `return`. -/
def Statement.isBlock : List Statement → Bool
  | [] => true
  | statement :: rest => (!statement.isReturn || rest.all isComment) && isBlock rest

/-- No expression of the list selects a method. -/
def Expression.areValues (expressions : List Expression) : Bool :=
  expressions.all (!·.isMethod)

/-- A node that the parser can build from its parts. -/
def Node.IsGrammatical : Node → Prop
  | .expression (.binary _ left right _) => left.isMethod = false ∧ right.isMethod = false
  | .expression (.unary _ argument _) => argument.isMethod = false
  | .expression (.call base arguments _) =>
    (base.isPrefix || base.isMethod) ∧ Expression.areValues arguments
  | .expression (.stringCall base argument _) =>
    (base.isPrefix || base.isMethod) ∧ argument.isString
  | .expression (.tableCall base _ _ _) => base.isPrefix || base.isMethod
  | .expression (.function head parameters body _) =>
    head = .anonymous ∧ Parameter.AreGrammatical parameters ∧ Statement.isBlock body
  | .expression (.group inner _) => inner.isMethod = false
  | .expression (.name identifier) => identifier.IsGrammatical
  | .expression (.index base key _) => base.isPrefix ∧ key.isMethod = false
  | .expression (.member base _ name _) => base.isPrefix ∧ name.IsGrammatical
  | .expression (.literal constant) => constant.IsGrammatical
  | .expression (.table ..) => True
  | .field (.keyed key value _) => key.isMethod = false ∧ value.isMethod = false
  | .field (.named name value _) => name.IsGrammatical ∧ value.isMethod = false
  | .field (.positional value) => value.isMethod = false
  | .field (.comment _) => True
  | .clause (.guarded _ condition body _) => condition.isMethod = false ∧ Statement.isBlock body
  | .clause (.otherwise body _) => Statement.isBlock body
  | .statement (.assignment targets values _) =>
    targets ≠ [] ∧ targets.all Grammar.isAssignable ∧ values ≠ [] ∧ Expression.areValues values
  | .statement (.breakLoop _) => True
  | .statement (.call value _) => value.isCall
  | .statement (.comment _) => True
  | .statement (.doBlock body _) => Statement.isBlock body
  | .statement (.genericFor declared iterators body _) =>
    declared ≠ [] ∧ (∀ name ∈ declared, name.IsGrammatical) ∧ iterators ≠ [] ∧
      Expression.areValues iterators ∧ Statement.isBlock body
  | .statement (.numericFor counter first last step body _) =>
    counter.IsGrammatical ∧ first.isMethod = false ∧ last.isMethod = false ∧
      (∀ value ∈ step, value.isMethod = false) ∧ Statement.isBlock body
  | .statement (.function head parameters body _) =>
    head.IsDeclaration ∧ Parameter.AreGrammatical parameters ∧ Statement.isBlock body
  | .statement (.goto target _) => target.IsGrammatical
  | .statement (.ifElse clauses _) => Clause.areGrammatical clauses
  | .statement (.label name _) => name.IsGrammatical
  | .statement (.localVariables declared values _) =>
    declared ≠ [] ∧ (∀ name ∈ declared, name.IsGrammatical) ∧ Expression.areValues values
  | .statement (.repeatUntil body condition _) =>
    Statement.isBlock body ∧ condition.isMethod = false
  | .statement (.returnValues values _) => Expression.areValues values
  | .statement (.whileLoop condition body _) =>
    condition.isMethod = false ∧ Statement.isBlock body

/-- All the nodes are ones that the parser can build. -/
def Node.AreGrammatical (nodes : List Node) : Prop :=
  ∀ node ∈ nodes, node.IsGrammatical

theorem Node.areGrammatical_cons {node : Node} {rest : List Node} :
    Node.AreGrammatical (node :: rest) ↔ node.IsGrammatical ∧ Node.AreGrammatical rest :=
  List.forall_mem_cons

theorem Node.areGrammatical_append {first second : List Node} :
    Node.AreGrammatical (first ++ second) ↔
      Node.AreGrammatical first ∧ Node.AreGrammatical second :=
  List.forall_mem_append

/-! ### Recasting -/

section

variable (recasting : Recasting)

/-- Other spans and texts do not make a selection of a method. -/
theorem Expression.isMethod_recast (expression : Expression) :
    (expression.recast recasting).isMethod = expression.isMethod := by
  cases expression with
  | member _ selector _ _ => cases selector <;> rfl
  | _ => rfl

theorem Expression.isPrefix_recast (expression : Expression) :
    (expression.recast recasting).isPrefix = expression.isPrefix := by
  cases expression with
  | member _ selector _ _ => cases selector <;> rfl
  | _ => rfl

theorem Expression.isCall_recast (expression : Expression) :
    (expression.recast recasting).isCall = expression.isCall := by
  cases expression <;> rfl

/-- What can be assigned to can be assigned to with other spans. -/
theorem Expression.isAssignable_recast (expression : Expression) :
    Grammar.isAssignable (expression.recast recasting) = Grammar.isAssignable expression := by
  cases expression with
  | member _ selector _ _ => cases selector <;> rfl
  | _ => rfl

theorem Expression.recastAll_eq_map (expressions : List Expression) :
    Expression.recastAll recasting expressions = expressions.map (Expression.recast recasting) := by
  induction expressions with
  | nil => rfl
  | cons expression rest inductionHypothesis =>
    rw [Expression.recastAll, inductionHypothesis, List.map_cons]

theorem Expression.areValues_recastAll (expressions : List Expression) :
    Expression.areValues (Expression.recastAll recasting expressions) =
      Expression.areValues expressions := by
  rw [Expression.recastAll_eq_map, areValues, areValues, List.all_map]
  congr 1
  funext expression
  exact congrArg _ (expression.isMethod_recast recasting)

theorem Expression.all_isAssignable_recastAll (expressions : List Expression) :
    (Expression.recastAll recasting expressions).all Grammar.isAssignable =
      expressions.all Grammar.isAssignable := by
  rw [Expression.recastAll_eq_map, List.all_map]
  congr 1
  funext expression
  exact expression.isAssignable_recast recasting

theorem Expression.recastAll_eq_nil_iff (expressions : List Expression) :
    Expression.recastAll recasting expressions = [] ↔ expressions = [] := by
  rw [Expression.recastAll_eq_map, List.map_eq_nil_iff]

theorem Name.forall_isGrammatical_recast (names : List Name) :
    (∀ name ∈ names.map (Name.recast recasting), name.IsGrammatical) ↔
      ∀ name ∈ names, name.IsGrammatical :=
  List.forall_mem_map

theorem Parameter.isGrammatical_recast (parameter : Parameter) :
    (parameter.recast recasting).IsGrammatical ↔ parameter.IsGrammatical := by
  cases parameter <;> rfl

theorem Parameter.areOrdered_recast (parameters : List Parameter) :
    areOrdered (parameters.map (Parameter.recast recasting)) = areOrdered parameters := by
  induction parameters with
  | nil => rfl
  | cons parameter rest inductionHypothesis =>
    cases rest with
    | nil => cases parameter <;> rfl
    | cons second rest =>
      cases parameter with
      | vararg span => rfl
      | name identifier => exact inductionHypothesis

/-- Parameters can be written with other spans if they can be written. -/
theorem Parameter.areGrammatical_recast (parameters : List Parameter) :
    AreGrammatical (parameters.map (Parameter.recast recasting)) ↔ AreGrammatical parameters := by
  rw [AreGrammatical, AreGrammatical, List.forall_mem_map, areOrdered_recast]
  simp only [isGrammatical_recast]

theorem FunctionName.isGrammatical_recast (name : FunctionName) :
    (name.recast recasting).IsGrammatical ↔ name.IsGrammatical := by
  obtain ⟨path, method, span⟩ := name
  cases method <;>
    simp [FunctionName.IsGrammatical, FunctionName.recast, Name.IsGrammatical, Name.recast]

/-- The head of a declaration with other spans is the head of a declaration. -/
theorem FunctionHead.isDeclaration_recast (head : FunctionHead) :
    (head.recast recasting).IsDeclaration ↔ head.IsDeclaration := by
  obtain ⟨_ | name, isLocal⟩ := head
  · rfl
  · exact and_congr (FunctionName.isGrammatical_recast recasting name)
      (imp_congr_right fun _ => and_congr (by rw [FunctionName.recast, List.length_map])
        Option.map_eq_none_iff)

/-- Only a head without a name has no name when its spans are replaced. -/
theorem FunctionHead.recast_eq_anonymous_iff (head : FunctionHead) :
    head.recast recasting = .anonymous ↔ head = .anonymous := by
  obtain ⟨name, isLocal⟩ := head
  rw [FunctionHead.recast, FunctionHead.anonymous, FunctionHead.mk.injEq, FunctionHead.mk.injEq,
    Option.map_eq_none_iff]

theorem Clause.areFurther_recastAll : ∀ clauses : List Clause,
    areFurther (Clause.recastAll recasting clauses) = areFurther clauses
  | [] => rfl
  | [.otherwise ..] => rfl
  | [.guarded word ..] => by cases word <;> rfl
  | .otherwise .. :: _ :: _ => rfl
  | .guarded .ifWord .. :: _ :: _ => rfl
  | .guarded .elseifWord _ _ _ :: second :: rest => areFurther_recastAll (second :: rest)

/-- Whether clauses make up a statement is a matter of their words. -/
theorem Clause.areGrammatical_recastAll (clauses : List Clause) :
    areGrammatical (Clause.recastAll recasting clauses) = areGrammatical clauses := by
  match clauses with
  | [] => rfl
  | .otherwise .. :: _ => rfl
  | .guarded .elseifWord .. :: _ => rfl
  | .guarded .ifWord .. :: rest => exact areFurther_recastAll recasting rest

theorem Statement.all_isComment_recast (statement : Statement) :
    (statement.recast recasting).all isComment = statement.isComment := by
  cases statement with
  | comment remark =>
    rw [Statement.recast]
    cases recasting.comment remark <;> rfl
  | _ => rfl

theorem Statement.all_isComment_recastAll (body : List Statement) :
    (Statement.recastAll recasting body).all isComment = body.all isComment := by
  induction body with
  | nil => rfl
  | cons statement rest inductionHypothesis =>
    rw [Statement.recastAll, List.all_append, all_isComment_recast, inductionHypothesis,
      List.all_cons]

/-- A block stays one if comments are dropped and spans replaced. -/
theorem Statement.isBlock_recastAll (body : List Statement) :
    isBlock (Statement.recastAll recasting body) = isBlock body := by
  induction body with
  | nil => rfl
  | cons statement rest inductionHypothesis =>
    cases statement with
    | comment remark =>
      rw [Statement.recastAll, Statement.recast]
      cases recasting.comment remark <;> exact inductionHypothesis
    | _ =>
      rw [Statement.recastAll, Statement.recast, List.singleton_append, isBlock, isBlock,
        inductionHypothesis, all_isComment_recastAll]
      rfl

/-- Recasting a node that keeps the raw texts of literals changes nothing about its being
grammatical, and neither does leaving out a comment. -/
theorem Node.isGrammatical_recast (keeps : ∀ constant, recasting.raw constant = constant.raw)
    (node : Node) :
    Node.AreGrammatical (node.recast recasting) ↔ node.IsGrammatical := by
  have literals (constant : Literal) :
      (constant.recast recasting).IsGrammatical ↔ constant.IsGrammatical := by
    rw [Literal.recast, keeps, Literal.IsGrammatical, Literal.IsGrammatical]
  have steps (step : Option Expression) :
      (∀ value ∈ Expression.recastOptional recasting step, value.isMethod = false) ↔
        ∀ value ∈ step, value.isMethod = false := by
    cases step <;> simp [Expression.recastOptional, Expression.isMethod_recast]
  have names (name : Name) : (name.recast recasting).IsGrammatical ↔ name.IsGrammatical := .rfl
  have strings (constant : Literal) :
      (constant.recast recasting).isString = constant.isString := rfl
  cases node with
  | expression value =>
    cases value <;>
      simp only [Node.recast, Node.AreGrammatical, List.forall_mem_singleton, Node.IsGrammatical,
        Expression.recast, Expression.isMethod_recast, Expression.isPrefix_recast,
        Expression.areValues_recastAll, FunctionHead.recast_eq_anonymous_iff,
        Parameter.areGrammatical_recast, Statement.isBlock_recastAll, literals, names, strings]
  | field entry =>
    cases entry with
    | comment remark =>
      cases kept : recasting.comment remark <;>
        simp [Node.recast, Field.recast, kept, Node.AreGrammatical, Node.IsGrammatical]
    | _ =>
      simp only [Node.recast, Node.AreGrammatical, List.map_cons, List.map_nil,
        List.forall_mem_singleton, Node.IsGrammatical, Field.recast, Expression.isMethod_recast,
        names]
  | clause branch =>
    cases branch <;>
      simp only [Node.recast, Node.AreGrammatical, List.forall_mem_singleton, Node.IsGrammatical,
        Clause.recast, Expression.isMethod_recast, Statement.isBlock_recastAll]
  | statement step =>
    cases step with
    | comment remark =>
      cases kept : recasting.comment remark <;>
        simp [Node.recast, Statement.recast, kept, Node.AreGrammatical, Node.IsGrammatical]
    | _ =>
      simp only [Node.recast, Node.AreGrammatical, List.map_cons, List.map_nil,
        List.forall_mem_singleton, Node.IsGrammatical, Statement.recast,
        Expression.isMethod_recast, Expression.isCall_recast, Expression.areValues_recastAll,
        Expression.all_isAssignable_recastAll, Expression.recastAll_eq_nil_iff, ne_eq,
        List.map_eq_nil_iff, Clause.areGrammatical_recastAll, Statement.isBlock_recastAll, steps,
        FunctionHead.isDeclaration_recast, Parameter.areGrammatical_recast, names,
        Name.forall_isGrammatical_recast]

end

/-! ### What the parser returns -/

/-- Every token is written like its kind. -/
def Token.AllSpelled (tokens : List Token) : Prop :=
  ∀ token ∈ tokens, Token.Spelled token.kind token.text

theorem Token.allSpelled_append {first second : List Token} :
    Token.AllSpelled (first ++ second) ↔ Token.AllSpelled first ∧ Token.AllSpelled second :=
  List.forall_mem_append

theorem Token.allSpelled_cons {token : Token} {rest : List Token} :
    Token.AllSpelled (token :: rest) ↔
      Token.Spelled token.kind token.text ∧ Token.AllSpelled rest :=
  List.forall_mem_cons

/-- A name that was read from a token can be written. -/
theorem Name.Reads.isGrammatical {name : Name} {token : Token} (reads : name.Reads token)
    (spelled : Token.Spelled token.kind token.text) : name.IsGrammatical := by
  obtain ⟨kind, rfl⟩ := reads
  rw [kind] at spelled
  cases spelled with
  | name isName => exact isName

theorem Name.ReadsAll.isGrammatical {separator : Token.Kind} {names : List Name}
    {tokens : List Token} (reads : Name.ReadsAll separator names tokens)
    (spelled : Token.AllSpelled tokens) :
    names ≠ [] ∧ ∀ name ∈ names, name.IsGrammatical := by
  induction reads with
  | single reads =>
    obtain ⟨spelled, -⟩ := Token.allSpelled_cons.1 spelled
    exact ⟨List.cons_ne_nil _ _, List.forall_mem_singleton.2 (reads.isGrammatical spelled)⟩
  | cons reads _ _ inductionHypothesis =>
    obtain ⟨spelled, more⟩ := Token.allSpelled_cons.1 spelled
    obtain ⟨-, more⟩ := Token.allSpelled_cons.1 more
    exact ⟨List.cons_ne_nil _ _,
      List.forall_mem_cons.2 ⟨reads.isGrammatical spelled, (inductionHypothesis more).2⟩⟩

/-- The name of a function that was read can be written. -/
theorem FunctionName.Reads.isGrammatical {name : FunctionName} {tokens : List Token}
    (reads : name.Reads tokens) (spelled : Token.AllSpelled tokens) : name.IsGrammatical := by
  cases reads with
  | plain path =>
    obtain ⟨nonempty, names⟩ := path.isGrammatical spelled
    exact ⟨nonempty, names, fun _ member => nomatch member⟩
  | method path mark method =>
    obtain ⟨before, after⟩ := Token.allSpelled_append.1 spelled
    obtain ⟨-, after⟩ := Token.allSpelled_cons.1 after
    obtain ⟨last, -⟩ := Token.allSpelled_cons.1 after
    obtain ⟨nonempty, names⟩ := path.isGrammatical before
    refine ⟨nonempty, names, fun other member => ?_⟩
    cases member
    exact method.isGrammatical last

/-- Parameters that were read can be written. -/
theorem Parameter.ReadsAll.isGrammatical {parameters : List Parameter} {tokens : List Token}
    (reads : Parameter.ReadsAll parameters tokens) (spelled : Token.AllSpelled tokens) :
    Parameter.AreGrammatical parameters := by
  induction reads with
  | nil => exact ⟨fun _ member => (nomatch member), rfl⟩
  | vararg => exact ⟨List.forall_mem_singleton.2 trivial, rfl⟩
  | single reads =>
    obtain ⟨spelled, -⟩ := Token.allSpelled_cons.1 spelled
    exact ⟨List.forall_mem_singleton.2 (reads.isGrammatical spelled), rfl⟩
  | @cons _ _ _ parameters _ reads _ nonempty _ inductionHypothesis =>
    obtain ⟨spelled, more⟩ := Token.allSpelled_cons.1 spelled
    obtain ⟨-, more⟩ := Token.allSpelled_cons.1 more
    obtain ⟨others, ordered⟩ := inductionHypothesis more
    refine ⟨List.forall_mem_cons.2 ⟨reads.isGrammatical spelled, others⟩, ?_⟩
    cases parameters with
    | nil => exact absurd rfl nonempty
    | cons => exact ordered

/-- What is read from a string is a string. -/
theorem Grammar.isString_of_stringLiteral {token : Token} {constant : Literal}
    (found : Grammar.stringLiteral token = .ok constant) : constant.isString := by
  unfold Grammar.stringLiteral at found
  split at found
  · cases found
    rfl
  · split at found
    · cases found
      rfl
    · cases found

/-- A literal that was read can be written. -/
theorem Literal.Reads.isGrammatical {constant : Literal} {token : Token}
    (reads : constant.Reads token) (spelled : Token.Spelled token.kind token.text) :
    constant.IsGrammatical := by
  cases reads with
  | nil kind | true kind | false kind =>
    rw [kind] at spelled
    generalize token.text = text at spelled
    cases spelled
    rfl
  | vararg kind =>
    rw [kind] at spelled
    generalize token.text = text at spelled
    cases spelled
    rfl
  | number kind found =>
    rw [kind] at spelled
    unfold Grammar.numberLiteral at found
    split at found
    next value named =>
      cases found
      cases spelled with
      | number isNumber => exact ⟨isNumber, named⟩
    · cases found
  | string _ found =>
    exact Literal.isGrammatical_of_isString (Grammar.isString_of_stringLiteral found)

section

variable {strict : Bool}

/-- Where an expression is asked for, no selection of a method is read. -/
theorem Expression.Reads.isMethod_eq {expression : Expression} {tokens : List Token}
    (reads : expression.Reads strict tokens) : expression.isMethod = false := by
  cases reads <;> rfl

/-- What is called is something that selections follow, or the selection of a method. -/
theorem Expression.ReadsCallee.isCallee {base : Expression} {tokens : List Token}
    (reads : base.ReadsCallee strict tokens) : base.isPrefix || base.isMethod := by
  cases reads with
  | value isPrefix => rw [isPrefix, Bool.true_or]
  | method => rfl

/-- A list of expressions has at least one, and none selects a method. -/
theorem Expression.ReadsAll.areValues {expressions : List Expression} {tokens : List Token}
    (reads : Expression.ReadsAll strict expressions tokens) :
    expressions ≠ [] ∧ Expression.areValues expressions := by
  induction expressions generalizing tokens with
  | nil => cases reads
  | cons expression rest inductionHypothesis =>
    refine ⟨List.cons_ne_nil _ _, ?_⟩
    cases reads with
    | single reads => simp [Expression.areValues, reads.isMethod_eq]
    | cons reads _ more =>
      have others := (inductionHypothesis more).2
      rw [Expression.areValues, List.all_cons, reads.isMethod_eq]
      exact others

theorem Expression.ReadsArguments.areValues {expressions : List Expression} {tokens : List Token}
    (reads : Expression.ReadsArguments strict expressions tokens) :
    Expression.areValues expressions := by
  cases reads with
  | nil => rfl
  | some reads => exact reads.areValues.2

/-- The first statement of a block comes apart from the others. Semicolons may stand before it. -/
theorem Statement.ReadsBody.uncons {statement : Statement} {rest : List Statement}
    {tokens : List Token} (reads : Statement.ReadsBody strict (statement :: rest) tokens) :
    ∃ marks segment more, tokens = marks ++ segment ++ more ∧
      (∀ mark ∈ marks, mark.kind = .symbol .semicolon) ∧ statement.Reads strict segment ∧
      (statement.isReturn → rest.all Statement.isComment) ∧
      (strict → Token.startParenthesis more = false) ∧ Statement.ReadsBody strict rest more := by
  induction tokens with
  | nil =>
    generalize same : ([] : List Token) = tokens at reads
    cases reads with
    | semicolon => cases same
    | cons first last apart others =>
      exact ⟨[], _, _, rfl, fun _ member => (nomatch member), first, last, apart, others⟩
  | cons token tokens inductionHypothesis =>
    generalize same : token :: tokens = all at reads
    cases reads with
    | semicolon kind _ inner =>
      cases same
      obtain ⟨marks, segment, more, rfl, semicolons, first, last, apart, others⟩ :=
        inductionHypothesis inner
      exact ⟨token :: marks, segment, more, rfl, List.forall_mem_cons.2 ⟨kind, semicolons⟩, first,
        last, apart, others⟩
    | cons first last apart others =>
      exact ⟨[], _, _, rfl, fun _ member => (nomatch member), first, last, apart, others⟩

/-- In a block that was read, only comments follow a `return`. -/
theorem Statement.ReadsBody.isBlock_eq {body : List Statement} {tokens : List Token}
    (reads : Statement.ReadsBody strict body tokens) : Statement.isBlock body := by
  induction body generalizing tokens with
  | nil => rfl
  | cons statement rest inductionHypothesis =>
    obtain ⟨_, _, _, -, -, -, last, -, others⟩ := reads.uncons
    rw [Statement.isBlock, inductionHypothesis others, Bool.and_true]
    cases isReturn : statement.isReturn with
    | false => rfl
    | true => exact last isReturn

/-- Behind a clause that was read only clauses follow that may follow one. -/
theorem Clause.ReadsFurther.areFurther_eq {clauses : List Clause} {tokens : List Token}
    (reads : Clause.ReadsFurther strict clauses tokens) : Clause.areFurther clauses := by
  induction clauses generalizing tokens with
  | nil => rfl
  | cons clause rest inductionHypothesis =>
    cases reads with
    | otherwise => rfl
    | cons guarded further =>
      have others := inductionHypothesis further
      cases guarded
      exact others

/-- What selects no method was read as an expression of its own. -/
theorem Expression.reads_of_or {expression : Expression} {tokens : List Token}
    (reads : expression.Reads strict tokens ∨ expression.ReadsCallee strict tokens)
    (plain : expression.isMethod = false) : expression.Reads strict tokens := by
  rcases reads with reads | callee
  · exact reads
  · cases callee with
    | value _ reads => exact reads
    | method => cases plain

/-- The selection of a member was read behind its base. -/
theorem Expression.reads_of_member {base : Expression} {selector : Selector} {name : Name}
    {span : Span} {tokens : List Token}
    (reads : (Expression.member base selector name span).Reads strict tokens ∨
      (Expression.member base selector name span).ReadsCallee strict tokens) :
    base.isPrefix ∧ ∃ before mark token,
      tokens = before ++ [mark, token] ∧ base.Reads strict before ∧
      name.Reads token := by
  rcases reads with reads | callee
  · cases reads with
    | member isPrefix reads _ nameReads => exact ⟨isPrefix, _, _, _, rfl, reads, nameReads⟩
  · cases callee with
    | value _ reads =>
      cases reads with
      | member isPrefix reads _ nameReads => exact ⟨isPrefix, _, _, _, rfl, reads, nameReads⟩
    | method isPrefix reads _ nameReads => exact ⟨isPrefix, _, _, _, rfl, reads, nameReads⟩

mutual

/-- An expression that is read, or called, is grammatical throughout. -/
theorem Expression.Reads.grammatical : ∀ (expression : Expression) {tokens : List Token},
    expression.Reads strict tokens ∨ expression.ReadsCallee strict tokens →
      Token.AllSpelled tokens →
      Node.AreGrammatical expression.nodes
  | .binary _ left right _, _, reads, spelled => by
    cases Expression.reads_of_or reads rfl with
    | binary leftReads _ rightReads =>
      obtain ⟨before, after⟩ := Token.allSpelled_append.1 spelled
      obtain ⟨-, after⟩ := Token.allSpelled_cons.1 after
      exact Node.areGrammatical_cons.2 ⟨⟨leftReads.isMethod_eq, rightReads.isMethod_eq⟩,
        Node.areGrammatical_append.2 ⟨Expression.Reads.grammatical left (.inl leftReads) before,
          Expression.Reads.grammatical right (.inl rightReads) after⟩⟩
  | .unary _ argument _, _, reads, spelled => by
    cases Expression.reads_of_or reads rfl with
    | unary _ argumentReads =>
      obtain ⟨-, after⟩ := Token.allSpelled_cons.1 spelled
      exact Node.areGrammatical_cons.2 ⟨argumentReads.isMethod_eq,
        Expression.Reads.grammatical argument (.inl argumentReads) after⟩
  | .call base arguments _, _, reads, spelled => by
    cases Expression.reads_of_or reads rfl with
    | call callee _ argumentsRead _ =>
      obtain ⟨before, -⟩ := Token.allSpelled_append.1 spelled
      obtain ⟨before, inside⟩ := Token.allSpelled_append.1 before
      obtain ⟨-, inside⟩ := Token.allSpelled_cons.1 inside
      have argumentsGrammatical : Node.AreGrammatical (Expression.nodesOfAll arguments) := by
        cases argumentsRead with
        | nil => exact fun _ member => nomatch member
        | some reads => exact Expression.ReadsAll.grammatical arguments reads inside
      exact Node.areGrammatical_cons.2 ⟨⟨callee.isCallee, argumentsRead.areValues⟩,
        Node.areGrammatical_append.2 ⟨Expression.Reads.grammatical base (.inr callee) before,
          argumentsGrammatical⟩⟩
  | .stringCall base _ _, _, reads, spelled => by
    cases Expression.reads_of_or reads rfl with
    | stringCall callee _ found =>
      obtain ⟨before, -⟩ := Token.allSpelled_append.1 spelled
      exact Node.areGrammatical_cons.2
        ⟨⟨callee.isCallee, Grammar.isString_of_stringLiteral found⟩,
          Expression.Reads.grammatical base (.inr callee) before⟩
  | .tableCall base fields _ _, _, reads, spelled => by
    cases Expression.reads_of_or reads rfl with
    | tableCall callee _ fieldsRead _ =>
      obtain ⟨before, -⟩ := Token.allSpelled_append.1 spelled
      obtain ⟨before, inside⟩ := Token.allSpelled_append.1 before
      obtain ⟨-, inside⟩ := Token.allSpelled_cons.1 inside
      exact Node.areGrammatical_cons.2 ⟨callee.isCallee,
        Node.areGrammatical_append.2 ⟨Expression.Reads.grammatical base (.inr callee) before,
          Field.ReadsAll.grammatical fields fieldsRead inside⟩⟩
  | .function head parameters body _, _, reads, spelled => by
    cases Expression.reads_of_or reads rfl with
    | function _ functionReads =>
      obtain ⟨-, inside⟩ := Token.allSpelled_cons.1 spelled
      cases functionReads with
      | intro _ parametersRead _ bodyReads _ =>
        obtain ⟨before, -⟩ := Token.allSpelled_append.1 inside
        obtain ⟨before, after⟩ := Token.allSpelled_append.1 before
        obtain ⟨-, before⟩ := Token.allSpelled_cons.1 before
        obtain ⟨-, after⟩ := Token.allSpelled_cons.1 after
        exact Node.areGrammatical_cons.2
          ⟨⟨rfl, parametersRead.isGrammatical before, bodyReads.isBlock_eq⟩,
            Statement.ReadsBody.grammatical body bodyReads after⟩
  | .group inner _, _, reads, spelled => by
    cases Expression.reads_of_or reads rfl with
    | group _ innerReads _ =>
      obtain ⟨before, -⟩ := Token.allSpelled_append.1 spelled
      obtain ⟨-, inside⟩ := Token.allSpelled_cons.1 before
      exact Node.areGrammatical_cons.2 ⟨innerReads.isMethod_eq,
        Expression.Reads.grammatical inner (.inl innerReads) inside⟩
  | .name identifier, _, reads, spelled => by
    cases Expression.reads_of_or reads rfl with
    | name nameReads =>
      obtain ⟨spelled, -⟩ := Token.allSpelled_cons.1 spelled
      exact List.forall_mem_singleton.2 (nameReads.isGrammatical spelled)
  | .index base key _, _, reads, spelled => by
    cases Expression.reads_of_or reads rfl with
    | index isPrefix baseReads _ keyReads _ =>
      obtain ⟨before, -⟩ := Token.allSpelled_append.1 spelled
      obtain ⟨before, inside⟩ := Token.allSpelled_append.1 before
      obtain ⟨-, inside⟩ := Token.allSpelled_cons.1 inside
      exact Node.areGrammatical_cons.2 ⟨⟨isPrefix, keyReads.isMethod_eq⟩,
        Node.areGrammatical_append.2 ⟨Expression.Reads.grammatical base (.inl baseReads) before,
          Expression.Reads.grammatical key (.inl keyReads) inside⟩⟩
  | .member base selector name span, _, reads, spelled => by
    obtain ⟨isPrefix, before, mark, token, rfl, baseReads, nameReads⟩ :=
      Expression.reads_of_member reads
    obtain ⟨before, after⟩ := Token.allSpelled_append.1 spelled
    obtain ⟨-, after⟩ := Token.allSpelled_cons.1 after
    obtain ⟨last, -⟩ := Token.allSpelled_cons.1 after
    exact Node.areGrammatical_cons.2 ⟨⟨isPrefix, nameReads.isGrammatical last⟩,
      Expression.Reads.grammatical base (.inl baseReads) before⟩
  | .literal constant, _, reads, spelled => by
    cases Expression.reads_of_or reads rfl with
    | literal literalReads =>
      obtain ⟨spelled, -⟩ := Token.allSpelled_cons.1 spelled
      exact List.forall_mem_singleton.2 (literalReads.isGrammatical spelled)
  | .table fields _, _, reads, spelled => by
    cases Expression.reads_of_or reads rfl with
    | table _ fieldsRead _ =>
      obtain ⟨before, -⟩ := Token.allSpelled_append.1 spelled
      obtain ⟨-, inside⟩ := Token.allSpelled_cons.1 before
      exact Node.areGrammatical_cons.2 ⟨trivial,
        Field.ReadsAll.grammatical fields fieldsRead inside⟩

theorem Expression.ReadsAll.grammatical : ∀ (expressions : List Expression) {tokens : List Token},
    Expression.ReadsAll strict expressions tokens → Token.AllSpelled tokens →
      Node.AreGrammatical (Expression.nodesOfAll expressions)
  | [], _, reads, _ => by cases reads
  | expression :: rest, _, reads, spelled => by
    cases reads with
    | single reads =>
      rw [Expression.nodesOfAll, Expression.nodesOfAll, List.append_nil]
      exact Expression.Reads.grammatical expression (.inl reads) spelled
    | cons reads _ more =>
      obtain ⟨before, after⟩ := Token.allSpelled_append.1 spelled
      obtain ⟨-, after⟩ := Token.allSpelled_cons.1 after
      exact Node.areGrammatical_append.2
        ⟨Expression.Reads.grammatical expression (.inl reads) before,
          Expression.ReadsAll.grammatical rest more after⟩

theorem Expression.ReadsStep.grammatical : ∀ (step : Option Expression) {tokens : List Token},
    Expression.ReadsStep strict step tokens → Token.AllSpelled tokens →
      Node.AreGrammatical (Expression.nodesOfOptional step)
  | none, _, _, _ => fun _ member => nomatch member
  | some step, _, reads, spelled => by
    cases reads with
    | some _ reads =>
      obtain ⟨-, after⟩ := Token.allSpelled_cons.1 spelled
      exact Expression.Reads.grammatical step (.inl reads) after

theorem Field.Reads.grammatical : ∀ (field : Field) {tokens : List Token},
    field.Reads strict tokens → Token.AllSpelled tokens → Node.AreGrammatical field.nodes
  | .keyed key value _, _, reads, spelled => by
    cases reads with
    | keyed _ keyReads _ _ valueReads =>
      obtain ⟨before, after⟩ := Token.allSpelled_append.1 spelled
      obtain ⟨-, before⟩ := Token.allSpelled_cons.1 before
      obtain ⟨-, after⟩ := Token.allSpelled_cons.1 after
      obtain ⟨-, after⟩ := Token.allSpelled_cons.1 after
      exact Node.areGrammatical_cons.2 ⟨⟨keyReads.isMethod_eq, valueReads.isMethod_eq⟩,
        Node.areGrammatical_append.2 ⟨Expression.Reads.grammatical key (.inl keyReads) before,
          Expression.Reads.grammatical value (.inl valueReads) after⟩⟩
  | .named _ value _, _, reads, spelled => by
    cases reads with
    | named nameReads _ valueReads =>
      obtain ⟨first, after⟩ := Token.allSpelled_cons.1 spelled
      obtain ⟨-, after⟩ := Token.allSpelled_cons.1 after
      exact Node.areGrammatical_cons.2
        ⟨⟨nameReads.isGrammatical first, valueReads.isMethod_eq⟩,
          Expression.Reads.grammatical value (.inl valueReads) after⟩
  | .positional value, _, reads, spelled => by
    cases reads with
    | positional valueReads =>
      exact Node.areGrammatical_cons.2 ⟨valueReads.isMethod_eq,
        Expression.Reads.grammatical value (.inl valueReads) spelled⟩
  | .comment _, _, reads, _ => by cases reads

theorem Field.ReadsAll.grammatical : ∀ (fields : List Field) {tokens : List Token},
    Field.ReadsAll strict fields tokens → Token.AllSpelled tokens →
      Node.AreGrammatical (Field.nodesOfAll fields)
  | [], _, _, _ => fun _ member => nomatch member
  | field :: rest, _, reads, spelled => by
    cases reads with
    | comment _ more =>
      obtain ⟨-, after⟩ := Token.allSpelled_cons.1 spelled
      exact Node.areGrammatical_cons.2 ⟨trivial, Field.ReadsAll.grammatical rest more after⟩
    | last reads _ more =>
      obtain ⟨before, after⟩ := Token.allSpelled_append.1 spelled
      exact Node.areGrammatical_append.2 ⟨Field.Reads.grammatical field reads before,
        Field.ReadsAll.grammatical rest more after⟩
    | cons reads _ more =>
      obtain ⟨before, after⟩ := Token.allSpelled_append.1 spelled
      obtain ⟨-, after⟩ := Token.allSpelled_cons.1 after
      exact Node.areGrammatical_append.2 ⟨Field.Reads.grammatical field reads before,
        Field.ReadsAll.grammatical rest more after⟩

theorem Clause.ReadsGuarded.grammatical : ∀ (clause : Clause) {word : ClauseWord}
    {tokens : List Token}, Clause.ReadsGuarded strict word clause tokens → Token.AllSpelled tokens →
      Node.AreGrammatical clause.nodes
  | .guarded _ condition body _, _, _, reads, spelled => by
    cases reads with
    | intro _ conditionReads _ bodyReads =>
      obtain ⟨before, after⟩ := Token.allSpelled_append.1 spelled
      obtain ⟨-, before⟩ := Token.allSpelled_cons.1 before
      obtain ⟨-, after⟩ := Token.allSpelled_cons.1 after
      exact Node.areGrammatical_cons.2 ⟨⟨conditionReads.isMethod_eq, bodyReads.isBlock_eq⟩,
        Node.areGrammatical_append.2
          ⟨Expression.Reads.grammatical condition (.inl conditionReads) before,
            Statement.ReadsBody.grammatical body bodyReads after⟩⟩
  | .otherwise .., _, _, reads, _ => by cases reads

theorem Clause.ReadsFurther.grammatical : ∀ (clauses : List Clause) {tokens : List Token},
    Clause.ReadsFurther strict clauses tokens → Token.AllSpelled tokens →
      Node.AreGrammatical (Clause.nodesOfAll clauses)
  | [], _, _, _ => fun _ member => nomatch member
  | .otherwise body _ :: rest, _, reads, spelled => by
    cases reads with
    | otherwise _ bodyReads =>
      obtain ⟨-, after⟩ := Token.allSpelled_cons.1 spelled
      exact Node.areGrammatical_append.2 ⟨Node.areGrammatical_cons.2 ⟨bodyReads.isBlock_eq,
        Statement.ReadsBody.grammatical body bodyReads after⟩, fun _ member => nomatch member⟩
    | cons guarded => cases guarded
  | .guarded word condition body span :: rest, _, reads, spelled => by
    cases reads with
    | cons guarded further =>
      obtain ⟨before, after⟩ := Token.allSpelled_append.1 spelled
      exact Node.areGrammatical_append.2
        ⟨Clause.ReadsGuarded.grammatical (.guarded word condition body span) guarded before,
          Clause.ReadsFurther.grammatical rest further after⟩

theorem Statement.Reads.grammatical : ∀ (statement : Statement) {tokens : List Token},
    statement.Reads strict tokens → Token.AllSpelled tokens → Node.AreGrammatical statement.nodes
  | .assignment targets values _, _, reads, spelled => by
    have targetsGrammatical := @Expression.ReadsAll.grammatical targets
    cases reads with
    | assignment assignable targetsRead _ valuesRead =>
      obtain ⟨before, after⟩ := Token.allSpelled_append.1 spelled
      obtain ⟨-, after⟩ := Token.allSpelled_cons.1 after
      exact Node.areGrammatical_cons.2
        ⟨⟨List.cons_ne_nil _ _, assignable, valuesRead.areValues⟩,
          Node.areGrammatical_append.2 ⟨targetsGrammatical targetsRead before,
            Expression.ReadsAll.grammatical values valuesRead after⟩⟩
  | .breakLoop _, _, _, _ => List.forall_mem_singleton.2 trivial
  | .call expression _, _, reads, spelled => by
    cases reads with
    | call isCall reads =>
      exact Node.areGrammatical_cons.2 ⟨isCall,
        Expression.Reads.grammatical expression (.inl reads) spelled⟩
  | .comment _, _, _, _ => List.forall_mem_singleton.2 trivial
  | .doBlock body _, _, reads, spelled => by
    cases reads with
    | doBlock _ bodyReads _ =>
      obtain ⟨before, -⟩ := Token.allSpelled_append.1 spelled
      obtain ⟨-, inside⟩ := Token.allSpelled_cons.1 before
      exact Node.areGrammatical_cons.2 ⟨bodyReads.isBlock_eq,
        Statement.ReadsBody.grammatical body bodyReads inside⟩
  | .genericFor declared iterators body _, _, reads, spelled => by
    cases reads with
    | genericFor _ declaredRead _ iteratorsRead _ bodyReads _ =>
      obtain ⟨before, -⟩ := Token.allSpelled_append.1 spelled
      obtain ⟨before, after⟩ := Token.allSpelled_append.1 before
      obtain ⟨before, middle⟩ := Token.allSpelled_append.1 before
      obtain ⟨-, before⟩ := Token.allSpelled_cons.1 before
      obtain ⟨-, middle⟩ := Token.allSpelled_cons.1 middle
      obtain ⟨-, after⟩ := Token.allSpelled_cons.1 after
      obtain ⟨nonempty, names⟩ := declaredRead.isGrammatical before
      obtain ⟨some, areValues⟩ := iteratorsRead.areValues
      exact Node.areGrammatical_cons.2
        ⟨⟨nonempty, names, some, areValues, bodyReads.isBlock_eq⟩,
          Node.areGrammatical_append.2
            ⟨Expression.ReadsAll.grammatical iterators iteratorsRead middle,
              Statement.ReadsBody.grammatical body bodyReads after⟩⟩
  | .numericFor counter first last step body _, _, reads, spelled => by
    cases reads with
    | numericFor _ counterReads _ firstReads _ lastReads stepReads _ bodyReads _ =>
      simp only [Token.allSpelled_append, Token.allSpelled_cons] at spelled
      obtain ⟨⟨⟨⟨⟨-, name, -, inFirst⟩, -, inLast⟩, inStep⟩, -, inBody⟩, -⟩ := spelled
      refine Node.areGrammatical_cons.2
        ⟨⟨counterReads.isGrammatical name, firstReads.isMethod_eq, lastReads.isMethod_eq,
          fun value member => ?_, bodyReads.isBlock_eq⟩, ?_⟩
      · cases stepReads with
        | none => cases member
        | some _ reads =>
          cases member
          exact reads.isMethod_eq
      · exact Node.areGrammatical_append.2 ⟨Node.areGrammatical_append.2
          ⟨Node.areGrammatical_append.2
            ⟨Expression.Reads.grammatical first (.inl firstReads) inFirst,
              Expression.Reads.grammatical last (.inl lastReads) inLast⟩,
            Expression.ReadsStep.grammatical step stepReads inStep⟩,
          Statement.ReadsBody.grammatical body bodyReads inBody⟩
  | .function head parameters body _, _, reads, spelled => by
    cases reads with
    | function _ nameReads functionReads =>
      cases functionReads with
      | intro _ parametersRead _ bodyReads _ =>
        simp only [Token.allSpelled_append, Token.allSpelled_cons] at spelled
        obtain ⟨⟨-, inName⟩, ⟨⟨-, inParameters⟩, -, inBody⟩, -⟩ := spelled
        exact Node.areGrammatical_cons.2
          ⟨⟨⟨nameReads.isGrammatical inName, (nomatch ·)⟩,
            parametersRead.isGrammatical inParameters, bodyReads.isBlock_eq⟩,
            Statement.ReadsBody.grammatical body bodyReads inBody⟩
    | localFunction _ _ nameReads functionReads =>
      cases functionReads with
      | intro _ parametersRead _ bodyReads _ =>
        simp only [Token.allSpelled_append, Token.allSpelled_cons] at spelled
        obtain ⟨-, -, inName, ⟨⟨-, inParameters⟩, -, inBody⟩, -⟩ := spelled
        have path := List.forall_mem_singleton.2 (nameReads.isGrammatical inName)
        exact Node.areGrammatical_cons.2
          ⟨⟨⟨⟨List.cons_ne_nil _ _, path, fun _ member => (nomatch member)⟩, fun _ => ⟨rfl, rfl⟩⟩,
            parametersRead.isGrammatical inParameters, bodyReads.isBlock_eq⟩,
            Statement.ReadsBody.grammatical body bodyReads inBody⟩
  | .goto target _, _, reads, spelled => by
    cases reads with
    | goto _ targetReads =>
      simp only [Token.allSpelled_cons] at spelled
      exact List.forall_mem_singleton.2 (targetReads.isGrammatical spelled.2.1)
  | .ifElse (clause :: clauses) _, _, reads, spelled => by
    cases reads with
    | ifElse guarded further _ =>
      obtain ⟨before, -⟩ := Token.allSpelled_append.1 spelled
      obtain ⟨before, after⟩ := Token.allSpelled_append.1 before
      refine Node.areGrammatical_cons.2 ⟨?_, Node.areGrammatical_append.2
        ⟨Clause.ReadsGuarded.grammatical clause guarded before,
          Clause.ReadsFurther.grammatical clauses further after⟩⟩
      have areFurther := further.areFurther_eq
      cases guarded
      exact areFurther
  | .ifElse [] _, _, reads, _ => by cases reads
  | .label name _, _, reads, spelled => by
    cases reads with
    | label _ nameReads _ =>
      simp only [Token.allSpelled_cons] at spelled
      exact List.forall_mem_singleton.2 (nameReads.isGrammatical spelled.2.1)
  | .localVariables declared values _, _, reads, spelled => by
    cases reads with
    | localNames _ declaredRead =>
      obtain ⟨-, after⟩ := Token.allSpelled_cons.1 spelled
      obtain ⟨nonempty, names⟩ := declaredRead.isGrammatical after
      exact List.forall_mem_singleton.2 ⟨nonempty, names, rfl⟩
    | localVariables _ declaredRead _ valuesRead =>
      obtain ⟨before, after⟩ := Token.allSpelled_append.1 spelled
      obtain ⟨-, before⟩ := Token.allSpelled_cons.1 before
      obtain ⟨-, after⟩ := Token.allSpelled_cons.1 after
      obtain ⟨nonempty, names⟩ := declaredRead.isGrammatical before
      exact Node.areGrammatical_cons.2 ⟨⟨nonempty, names, valuesRead.areValues.2⟩,
        Expression.ReadsAll.grammatical values valuesRead after⟩
  | .repeatUntil body condition _, _, reads, spelled => by
    cases reads with
    | repeatUntil _ bodyReads _ conditionReads =>
      obtain ⟨before, after⟩ := Token.allSpelled_append.1 spelled
      obtain ⟨-, before⟩ := Token.allSpelled_cons.1 before
      obtain ⟨-, after⟩ := Token.allSpelled_cons.1 after
      exact Node.areGrammatical_cons.2 ⟨⟨bodyReads.isBlock_eq, conditionReads.isMethod_eq⟩,
        Node.areGrammatical_append.2 ⟨Statement.ReadsBody.grammatical body bodyReads before,
          Expression.Reads.grammatical condition (.inl conditionReads) after⟩⟩
  | .returnValues values _, _, reads, spelled => by
    cases reads with
    | returnValues _ valuesRead _ =>
      obtain ⟨before, -⟩ := Token.allSpelled_append.1 spelled
      obtain ⟨-, inside⟩ := Token.allSpelled_cons.1 before
      refine Node.areGrammatical_cons.2 ⟨valuesRead.areValues, ?_⟩
      cases valuesRead with
      | nil => exact fun _ member => nomatch member
      | some reads => exact Expression.ReadsAll.grammatical values reads inside
  | .whileLoop condition body _, _, reads, spelled => by
    cases reads with
    | whileLoop _ conditionReads _ bodyReads _ =>
      obtain ⟨before, -⟩ := Token.allSpelled_append.1 spelled
      obtain ⟨before, after⟩ := Token.allSpelled_append.1 before
      obtain ⟨-, before⟩ := Token.allSpelled_cons.1 before
      obtain ⟨-, after⟩ := Token.allSpelled_cons.1 after
      exact Node.areGrammatical_cons.2 ⟨⟨conditionReads.isMethod_eq, bodyReads.isBlock_eq⟩,
        Node.areGrammatical_append.2
          ⟨Expression.Reads.grammatical condition (.inl conditionReads) before,
            Statement.ReadsBody.grammatical body bodyReads after⟩⟩

theorem Statement.ReadsBody.grammatical : ∀ (body : List Statement) {tokens : List Token},
    Statement.ReadsBody strict body tokens → Token.AllSpelled tokens →
      Node.AreGrammatical (Statement.nodesOfAll body)
  | [], _, _, _ => fun _ member => nomatch member
  | statement :: rest, _, reads, spelled => by
    obtain ⟨marks, segment, more, rfl, -, reads, -, -, others⟩ := reads.uncons
    obtain ⟨before, after⟩ := Token.allSpelled_append.1 spelled
    obtain ⟨-, before⟩ := Token.allSpelled_append.1 before
    exact Node.areGrammatical_append.2 ⟨Statement.Reads.grammatical statement reads before,
      Statement.ReadsBody.grammatical rest others after⟩

end

end

/-! ### Programs -/

namespace Program

/-- The parser reads a program from all the tokens of its source that are not comments. -/
theorem parse_reads {source : List Char} {program : Program}
    (parsed : parse source = .ok program) :
    Statement.ReadsBody false program.chunk.body
        ((Token.ofText source).filter (·.kind != .comment)) ∧
      program.comments = commentsOf source := by
  unfold parse at parsed
  obtain ⟨⟨body, rest, within⟩, found, parsed⟩ := bind_eq_ok.1 parsed
  obtain ⟨tokens, steps, reads⟩ := (Grammar.accounted (start source)).block _ found
  dsimp only at parsed steps
  split at parsed
  next ended =>
    cases parsed
    refine ⟨?_, rfl⟩
    -- No token says that the source ends, so none remains where it does.
    have none : rest.remaining = [] := by
      cases remaining : rest.remaining with
      | nil => rfl
      | cons token more =>
        have member : token ∈ (Token.ofText source).filter (·.kind != .comment) := by
          show token ∈ (start source).remaining
          rw [steps.remaining, remaining]
          simp
        have spelled := (Token.fits_of_mem_tokensFrom token (List.mem_filter.1 member).1).spelled
        have kind : token.kind = .endOfSource := by
          rw [Cursor.kind, Cursor.current, remaining] at ended
          exact ended
        rw [kind] at spelled
        cases spelled
    have all := steps.remaining
    rw [none, List.append_nil] at all
    rw [show (Token.ofText source).filter (·.kind != .comment) = tokens from all]
    exact reads
  · cases parsed

/-- The tokens of a source are written like their kinds. -/
theorem allSpelled_ofText (source : List Char) : Token.AllSpelled (Token.ofText source) :=
  fun token member => (Token.fits_of_mem_tokensFrom token member).spelled

theorem exists_of_isOk {source : List Char} (isOk : (parse source).isOk) :
    ∃ program, parse source = .ok program := by
  cases parsed : parse source with
  | ok program => exact ⟨program, rfl⟩
  | error error =>
    rw [parsed] at isOk
    cases isOk

/-- The parser returns grammatical trees only. -/
theorem grammatical_of_parse {source : List Char} {program : Program}
    (parsed : parse source = .ok program) :
    Node.AreGrammatical (Statement.nodesOfAll program.chunk.body) ∧
      Statement.isBlock program.chunk.body := by
  obtain ⟨reads, -⟩ := parse_reads parsed
  refine ⟨Statement.ReadsBody.grammatical _ reads fun token member => ?_, reads.isBlock_eq⟩
  exact allSpelled_ofText source token (List.mem_filter.1 member).1

end Program

/-- The recasting that forgets spans and comments and keeps raw texts. -/
def Recasting.bare : Recasting where
  span := fun _ => default
  comment := fun _ => none
  raw := Literal.raw

/-- Forgetting spans and comments, a program is arranged as it was. -/
theorem Program.recast_arrange (program : Program) :
    Statement.recastAll .bare program.arrange.body =
      Statement.recastAll .bare program.chunk.body :=
  (program.gainsAll_arrange.recast_eq fun _ _ => rfl).trans
    (Statement.recastAll_extendAll .bare program.chunk.body)

/-- A property of single nodes that spans and comments do not matter for holds throughout a program
that is arranged exactly when it holds throughout the program. -/
theorem Program.forall_nodes_arrange (program : Program) {holds : Node → Prop}
    (bare : ∀ node : Node, (∀ image ∈ node.recast .bare, holds image) ↔ holds node) :
    (∀ node ∈ Statement.nodesOfAll program.arrange.body, holds node) ↔
      ∀ node ∈ Statement.nodesOfAll program.chunk.body, holds node := by
  rw [← Statement.forall_nodes_recastAll bare, program.recast_arrange,
    Statement.forall_nodes_recastAll bare]

/-- Arranging a program leaves it grammatical. -/
theorem Program.grammatical_arrange {program : Program}
    (grammatical : Node.AreGrammatical (Statement.nodesOfAll program.chunk.body))
    (isBlock : Statement.isBlock program.chunk.body) :
    Node.AreGrammatical (Statement.nodesOfAll program.arrange.body) ∧
      Statement.isBlock program.arrange.body := by
  refine ⟨(program.forall_nodes_arrange (Node.isGrammatical_recast .bare fun _ => rfl)).2
    grammatical, ?_⟩
  rw [← Statement.isBlock_recastAll .bare, program.recast_arrange, Statement.isBlock_recastAll]
  exact isBlock

end LuaStyle
