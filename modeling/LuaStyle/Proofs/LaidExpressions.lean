/-
This file proves that a laid-out expression is cut into the tokens of its surface.

What may follow an expression depends on its form. Something that can be selected from or called
ends where no name goes on; anything else has to be followed by a character that ends every
expression, since a number would swallow a point. Where an expression starts matters as well: after
a minus sign no other one may stand, and after an opening bracket neither a second one nor an equals
sign.
-/

import LuaStyle.Proofs.NumberText
import LuaStyle.Proofs.QuotedText
import LuaStyle.Proofs.Written
import Mathlib.Data.List.Forall2

namespace LuaStyle

/-! ### Texts on one line -/

theorem Token.Keyword.isLine_text (word : Keyword) : Comment.IsLine word.text := by
  cases word <;> decide

theorem Token.Symbol.isLine_text (mark : Symbol) : Comment.IsLine mark.text := by
  cases mark <;> decide

/-- A name has no line break. -/
theorem Name.isLine_text {name : Name} (named : name.IsGrammatical) :
    Comment.IsLine name.text := by
  refine Comment.isLine_of_noBlank ?_ named.isBlank_eq
  obtain ⟨c, rest, same, -⟩ := named
  rw [same]
  exact List.cons_ne_nil _ _

/-- A number has no line break. -/
theorem Token.IsNumber.isLine {text : List Char} (isNumber : IsNumber text) :
    Comment.IsLine text := by
  refine Comment.isLine_of_noBlank ?_ isNumber.isBlank_eq
  obtain ⟨c, rest, rfl, -⟩ := isNumber
  exact List.cons_ne_nil _ _

/-- A quoted string is written without raw line breaks. -/
theorem Quoted.isLine_encode (bytes : List UInt8) (style : QuoteStyle) :
    Comment.IsLine (encode bytes style) := by
  have noLineBreak := noLineBreak_encode bytes style
  have solid : isBlank (style.quoteFor bytes) = false := by
    rcases style.quoteFor_eq bytes with quote | quote <;> rw [quote] <;> rfl
  refine Comment.isLine_iff.2 ⟨List.cons_ne_nil _ _, ⟨?_, noLineBreak⟩, ?_, noLineBreak⟩
  · rintro _ ⟨⟩
    exact solid
  · unfold encode
    dsimp only
    rw [List.getLast?_concat]
    rintro _ ⟨⟩
    exact solid

/-! ### What follows, and what starts -/

theorem Token.stops_cons {c : Char} (stop : Token.isStop c) (rest : List Char) :
    Token.Stops (c :: rest) := by
  intro d first
  cases first
  exact stop

theorem Token.endsName_cons {c : Char} (ends : Token.isNamePart c = false) (rest : List Char) :
    Token.EndsName (c :: rest) := by
  intro d first
  cases first
  exact ends

theorem Token.Symbol.endsIn_cons {mark : Token.Symbol} {c : Char} (ends : mark.endsBefore c)
    (rest : List Char) : mark.EndsIn (c :: rest) := by
  intro d first
  cases first
  exact ends

/-- A symbol that no other character can belong to. -/
theorem Doc.cuts_mark {config : Config} (mark : Token.Symbol) (alone : ∀ c, mark.endsBefore c)
    (rest : List Char) : (Doc.ofText mark.text).Cuts config rest (Doc.One (.symbol mark)) :=
  Doc.cuts_symbol mark fun c _ => alone c

/-- A binary operator and the space behind it are cut off as one token. -/
theorem Doc.cuts_binaryOperator {config : Config} (operator : BinaryOperator) (rest : List Char) :
    (Doc.ofText operator.text).Cuts config (' ' :: rest) (Doc.One operator.token) := by
  cases operator with
  | and => exact Doc.cuts_word .andWord (Token.endsName_cons rfl rest)
  | or => exact Doc.cuts_word .orWord (Token.endsName_cons rfl rest)
  | add => exact Doc.cuts_symbol .plus (Token.Symbol.endsIn_cons rfl rest)
  | subtract => exact Doc.cuts_symbol .minus (Token.Symbol.endsIn_cons rfl rest)
  | multiply => exact Doc.cuts_symbol .star (Token.Symbol.endsIn_cons rfl rest)
  | divide => exact Doc.cuts_symbol .slash (Token.Symbol.endsIn_cons rfl rest)
  | remainder => exact Doc.cuts_symbol .percent (Token.Symbol.endsIn_cons rfl rest)
  | power => exact Doc.cuts_symbol .caret (Token.Symbol.endsIn_cons rfl rest)
  | concat => exact Doc.cuts_symbol .dotDot (Token.Symbol.endsIn_cons rfl rest)
  | equal => exact Doc.cuts_symbol .equalEqual (Token.Symbol.endsIn_cons rfl rest)
  | notEqual => exact Doc.cuts_symbol .tildeEqual (Token.Symbol.endsIn_cons rfl rest)
  | less => exact Doc.cuts_symbol .less (Token.Symbol.endsIn_cons rfl rest)
  | lessEqual => exact Doc.cuts_symbol .lessEqual (Token.Symbol.endsIn_cons rfl rest)
  | greater => exact Doc.cuts_symbol .greater (Token.Symbol.endsIn_cons rfl rest)
  | greaterEqual => exact Doc.cuts_symbol .greaterEqual (Token.Symbol.endsIn_cons rfl rest)

/-- The operator ends in front of the character. -/
def UnaryOperator.endsBefore : UnaryOperator → Char → Bool
  | not, c => !Token.isNamePart c
  | negate, c => c != '-'
  | length, _ => true

/-- A unary operator is cut off as one token in front of what does not go on with it. -/
theorem Doc.cuts_unaryOperator {config : Config} {operator : UnaryOperator} {rest : List Char}
    (ends : ∀ c ∈ rest.head?, operator.endsBefore c) :
    (Doc.ofText operator.text).Cuts config rest (Doc.One operator.token) := by
  cases operator with
  | not => exact Doc.cuts_word .notWord fun c first => Bool.not_eq_true' .. ▸ ends c first
  | negate => exact Doc.cuts_symbol .minus ends
  | length => exact Doc.cuts_symbol .hash fun _ _ => rfl

/-- A name. -/
theorem Doc.cuts_name {config : Config} {name : Name} {rest : List Char}
    (named : name.IsGrammatical)
    (ends : Token.EndsName rest) : (Doc.ofText name.text).Cuts config rest
      fun tokens => ∃ token, tokens = [token] ∧ name.Written token := by
  rw [Doc.Cuts, Doc.written_ofText config (Doc.not_mem_name named)]
  refine (Token.cuts_name named ends).mono ?_
  rintro _ ⟨token, rfl, kind, text⟩
  exact ⟨token, rfl, Name.written_of_text kind text⟩

/-- The symbol of a selector ends in front of a name. -/
theorem Selector.endsIn_symbol (selector : Selector) {c : Char} (start : Token.isNameStart c)
    (rest : List Char) : selector.symbol.EndsIn (c :: rest) := by
  cases selector with
  | dot =>
    have noPoint : c ≠ '.' := by
      rintro rfl
      cases start
    exact Token.Symbol.endsIn_cons (Bool.and_eq_true .. ▸ ⟨bne_iff_ne.2 noPoint,
      Bool.not_eq_true' .. ▸ Token.isDigit_of_isNameStart start⟩) rest
  | colon =>
    have noColon : (c != ':') = true := by
      rw [bne_iff_ne]
      rintro rfl
      cases start
    refine Token.Symbol.endsIn_cons ?_ rest
    exact noColon

/-- A point or colon in front of a name. -/
theorem Doc.cuts_selector {config : Config} (selector : Selector) {name : Name}
    (named : name.IsGrammatical) (rest : List Char) :
    (Doc.ofText selector.text).Cuts config ((Doc.ofText name.text).written config ++ rest)
      (Doc.One (.symbol selector.symbol)) := by
  rw [Doc.written_ofText config (Doc.not_mem_name named)]
  obtain ⟨c, more, same, start, -⟩ := named
  rw [same]
  cases selector <;> exact Doc.cuts_symbol _ (Selector.endsIn_symbol _ start _)

namespace Expression

/-- An expression can start with the character. -/
def canOpen (c : Char) : Bool :=
  !Token.isSpace c && c != '[' && c != '='

/-- An expression of the form can start with the character. -/
def Form.canOpen : Form → Char → Bool
  | .binary operator, c =>
    Expression.canOpen c && (c != '-' || decide (operator.rank < UnaryOperator.rank))
  | .unary, c => Expression.canOpen c
  | .bareArgument, c => Expression.canOpen c && c != '-' && !Token.isNamePart c
  | .base, c | .other, c => Expression.canOpen c && c != '-'

/-- Everything can start with a parenthesis. -/
theorem Form.canOpen_parenthesis (form : Form) : form.canOpen '(' := by
  cases form <;> rfl

/-- What an expression of some form starts with, an expression can start with. -/
theorem Form.canOpen_imp {form : Form} {c : Char} (opens : form.canOpen c) :
    Expression.canOpen c := by
  cases form with
  | unary => exact opens
  | binary => exact (Bool.and_eq_true .. ▸ opens).1
  | base | other => exact (Bool.and_eq_true .. ▸ opens).1
  | bareArgument => exact (Bool.and_eq_true .. ▸ (Bool.and_eq_true .. ▸ opens).1).1

/-- No expression starts with a space. -/
theorem Form.isSpace_of_canOpen {form : Form} {c : Char} (opens : form.canOpen c) :
    Token.isSpace c = false := by
  have solid := (Bool.and_eq_true .. ▸ Form.canOpen_imp opens).1
  exact Bool.not_eq_true' .. ▸ (Bool.and_eq_true .. ▸ solid).1

/-- The rest may follow an expression of the form. -/
def Form.Follows : Form → List Char → Prop
  | .base, rest => Token.EndsName rest
  | .bareArgument, _ => True
  | .binary _, rest | .unary, rest | .other, rest => Token.Stops rest

/-- The rest may follow the expression. -/
def Follows (expression : Expression) (rest : List Char) : Prop :=
  expression.withoutParens.form.Follows rest

/-- Where nothing goes on, every expression may end. -/
theorem follows_of_stops {expression : Expression} {rest : List Char} (stops : Token.Stops rest) :
    expression.Follows rest := by
  unfold Follows
  cases expression.withoutParens.form with
  | base => exact stops.endsName
  | bareArgument => trivial
  | binary | unary | other => exact stops

/-- The document is a layout of the expression, which is cut into the tokens of its surface. -/
structure Laid (config : Config) (expression : Expression) (doc : Doc) : Prop where
  cuts : ∀ rest, expression.Follows rest → doc.Cuts config rest expression.surface.Written
  starts : ∃ c more, doc = .char c :: more ∧ expression.withoutParens.form.canOpen c
  plain : expression.isMethod = false → expression.surface.isMethod = false

/-- The documents are layouts of the expressions. -/
abbrev AreLaid (config : Config) (expressions : List Expression) (docs : List Doc) : Prop :=
  List.Forall₂ (Laid config) expressions docs

variable {config : Config} {rest : List Char}

/-! ### Parentheses -/

/-- What stands in parentheses selects no method. -/
theorem isMethod_inParens {inner : Expression} {needed : Bool}
    (plain : needed = false → inner.isMethod = false) :
    (inner.inParens needed).isMethod = false := by
  cases needed with
  | true => rfl
  | false => exact plain rfl

/-- An expression, perhaps in parentheses. -/
theorem Laid.cuts_parenthesize {expression : Expression} {doc : Doc}
    (laid : expression.Laid config doc) (needed : Bool)
    (plain : needed → expression.isMethod = false) (rest : List Char)
    (follows : needed = false → expression.Follows rest) :
    (Doc.parenthesize needed doc).Cuts config rest
      (expression.surface.inParens needed).Written := by
  cases needed with
  | false => exact laid.cuts rest (follows rfl)
  | true =>
    have inner := laid.cuts (')' :: rest) (follows_of_stops (Token.stops_cons rfl rest))
    refine Doc.Cuts.mono (.append (.append (Doc.cuts_mark .leftParen (fun _ => rfl) _) inner)
      (Doc.cuts_mark .rightParen (fun _ => rfl) rest)) ?_
    rintro _ ⟨_, _, rfl, ⟨_, tokens, rfl, ⟨opening, rfl, opens⟩, written⟩, closing, rfl, closes⟩
    exact written_group opens written (laid.plain (plain rfl)) closes

theorem starts_parenthesize {form outer : Form} {needed : Bool} {doc : Doc}
    (starts : ∃ c more, doc = .char c :: more ∧ form.canOpen c)
    (imp : needed = false → ∀ c, form.canOpen c → outer.canOpen c) :
    ∃ c more, Doc.parenthesize needed doc = .char c :: more ∧ outer.canOpen c := by
  cases needed with
  | true => exact ⟨'(', doc ++ [.char ')'], rfl, outer.canOpen_parenthesis⟩
  | false =>
    obtain ⟨c, more, same, opens⟩ := starts
    exact ⟨c, more, same, imp rfl c opens⟩

theorem starts_append {form : Form} {first : Doc} (second : Doc)
    (starts : ∃ c more, first = .char c :: more ∧ form.canOpen c) :
    ∃ c more, first ++ second = .char c :: more ∧ form.canOpen c := by
  obtain ⟨c, more, rfl, opens⟩ := starts
  exact ⟨c, more ++ second, rfl, opens⟩

/-! ### Operators -/

/-- An operand that is written directly behind a unary operator does not start with a minus
sign. -/
theorem ne_minus {argument : Expression} {c : Char}
    (opens : argument.withoutParens.form.canOpen c)
    (noParens : argument.withoutParens.needsParensUnderUnary = false)
    (noUnary : argument.withoutParens.isUnary = false) : (c != '-') = true := by
  rw [needsParensUnderUnary_eq] at noParens
  rw [isUnary_eq] at noUnary
  generalize argument.withoutParens.form = form at opens noParens noUnary
  cases form with
  | unary => cases noUnary
  | binary operator =>
    have high : decide (operator.rank < UnaryOperator.rank) = false := noParens
    have opens := (Bool.and_eq_true .. ▸ opens).2
    rw [high, Bool.or_false] at opens
    exact opens
  | base | other => exact (Bool.and_eq_true .. ▸ opens).2
  | bareArgument => exact (Bool.and_eq_true .. ▸ (Bool.and_eq_true .. ▸ opens).1).2

/-- A unary operator is read back with its operand. -/
theorem laid_unary {operator : UnaryOperator} {argument : Expression} {span : Span} {doc : Doc}
    (laid : argument.Laid config doc) (plain : argument.isMethod = false) :
    (unary operator argument span).Laid config (unaryDoc operator argument doc) where
  cuts := by
    intro rest follows
    have stops : Token.Stops rest := follows
    have join (needed : Bool) {tokens : List Token}
        (parts : Token.Joined (Doc.One operator.token)
          (argument.surface.inParens needed).Written tokens)
        (same : argument.withoutParens.needsParensUnderUnary = needed) :
        (unary operator argument span).surface.Written tokens := by
      obtain ⟨_, _, rfl, ⟨mark, rfl, kind⟩, written⟩ := parts
      rw [surface, same]
      exact written_unary kind written (isMethod_inParens fun _ => laid.plain plain)
    unfold unaryDoc
    split
    next needed =>
      have inner := laid.cuts_parenthesize true (fun _ => plain) rest nofun
      refine Doc.Cuts.mono (.append (Doc.cuts_unaryOperator ?_) inner) fun _ parts =>
        join true parts needed
      intro c first
      cases first
      cases operator <;> rfl
    next noParens =>
      rw [Bool.not_eq_true] at noParens
      have inner := laid.cuts rest (follows_of_stops stops)
      split
      · refine Doc.Cuts.mono (.append (Doc.cuts_unaryOperator ?_) inner.space) fun _ parts =>
          join false parts noParens
        intro c first
        cases first
        cases operator <;> rfl
      next direct =>
        rw [Bool.not_eq_true, Bool.or_eq_false_iff] at direct
        refine Doc.Cuts.mono (.append (Doc.cuts_unaryOperator ?_) inner) fun _ parts =>
          join false parts noParens
        obtain ⟨d, more, rfl, opens⟩ := laid.starts
        intro c first
        cases first
        cases operator with
        | not => cases direct.1
        | negate => exact ne_minus opens noParens direct.2
        | length => rfl
  starts := by
    unfold unaryDoc
    split
    · cases operator <;> exact ⟨_, _, rfl, rfl⟩
    · split <;> cases operator <;> exact ⟨_, _, rfl, rfl⟩
  plain := fun _ => rfl

/-- No binary operator has the rank of the unary ones. -/
theorem rank_ne_unary (operator : BinaryOperator) : operator.rank ≠ UnaryOperator.rank := by
  cases operator <;> decide

/-- A left operand without parentheses starts with a minus sign only if the whole would get
parentheses under a unary operator. -/
theorem canOpen_of_left {operator : BinaryOperator} {left : Expression} {c : Char}
    (noParens : left.withoutParens.needsParensOnLeft operator = false)
    (opens : left.withoutParens.form.canOpen c) : (Form.binary operator).canOpen c := by
  rw [needsParensOnLeft_eq] at noParens
  generalize left.withoutParens.form = form at noParens opens
  refine Bool.and_eq_true .. ▸ ⟨Form.canOpen_imp opens, ?_⟩
  rw [Bool.or_eq_true, decide_eq_true_eq]
  cases form with
  | unary =>
    have low : operator.rank ≤ UnaryOperator.rank := Nat.le_of_not_lt (of_decide_eq_false noParens)
    exact .inr (Nat.lt_of_le_of_ne low (rank_ne_unary operator))
  | binary inner =>
    have lower : operator.rank < inner.rank := Nat.lt_of_not_le (of_decide_eq_false noParens)
    rcases Bool.or_eq_true .. ▸ (Bool.and_eq_true .. ▸ opens).2 with noMinus | low
    · exact .inl noMinus
    · exact .inr (Nat.lt_trans lower (of_decide_eq_true low))
  | base | other => exact .inl (Bool.and_eq_true .. ▸ opens).2
  | bareArgument => exact .inl (Bool.and_eq_true .. ▸ (Bool.and_eq_true .. ▸ opens).1).2

/-- A binary operator is read back with its operands. -/
theorem laid_binary {operator : BinaryOperator} {left right : Expression} {span : Span}
    {leftDoc rightDoc : Doc} (leftLaid : left.Laid config leftDoc)
    (leftPlain : left.isMethod = false) (rightLaid : right.Laid config rightDoc)
    (rightPlain : right.isMethod = false) :
    (binary operator left right span).Laid config
      (binaryDoc operator left right leftDoc rightDoc) where
  cuts := by
    intro rest follows
    have stops : Token.Stops rest := follows
    have leftCuts (rest : List Char) :=
      leftLaid.cuts_parenthesize (left.withoutParens.needsParensOnLeft operator)
        (fun _ => leftPlain) (' ' :: rest) fun _ => follows_of_stops (Token.stops_cons rfl rest)
    have rightCuts :=
      rightLaid.cuts_parenthesize (right.withoutParens.needsParensOnRight operator)
        (fun _ => rightPlain) rest fun _ => follows_of_stops stops
    unfold binaryDoc
    refine Doc.Cuts.mono
      (.append (.append (leftCuts _) (Doc.Cuts.space (Doc.cuts_binaryOperator operator _)))
        rightCuts.space) ?_
    rintro _ ⟨_, after, rfl, ⟨before, _, rfl, leftWritten, mark, rfl, kind⟩, rightWritten⟩
    rw [surface, List.append_assoc]
    exact written_join leftWritten (isMethod_inParens fun _ => leftLaid.plain leftPlain) kind _
      rightWritten (isMethod_inParens fun _ => rightLaid.plain rightPlain)
  starts := by
    unfold binaryDoc
    rw [List.append_assoc]
    refine starts_append _ (starts_parenthesize leftLaid.starts fun noParens c opens => ?_)
    exact canOpen_of_left noParens opens
  plain := fun _ => isMethod_join _ _ _

/-! ### Selections -/

/-- Something that is selected from or called, as it is read from its layout. -/
def surfaceBase (base : Expression) : Expression :=
  base.surface.inParens (!base.withoutParens.isBase)

/-- What is written as a base can be called. -/
theorem isCallee_surfaceBase (base : Expression) :
    (base.surfaceBase.isPrefix || base.surfaceBase.isMethod) = true := by
  rw [surfaceBase]
  cases isBase : base.withoutParens.isBase with
  | false => rfl
  | true =>
    rw [← isBase_surface] at isBase
    show (base.surface.isPrefix || base.surface.isMethod) = true
    generalize base.surface = surface at isBase
    cases surface with
    | member _ selector => cases selector <;> rfl
    | name | index | call | stringCall | tableCall | group => rfl
    | literal constant => cases constant with | mk value => cases value <;> cases isBase
    | binary | unary | function | table => cases isBase

/-- The form of what needs no parentheses as a base is that of a base. -/
theorem form_of_isBase {expression : Expression} (isBase : expression.isBase) :
    expression.form = .base := by
  rw [isBase_eq] at isBase
  exact eq_of_beq isBase

/-- What selects a method needs no parentheses as a base. -/
theorem isMethod_eq_false_of_not_isBase {base : Expression}
    (notBase : base.withoutParens.isBase = false) : base.isMethod = false := by
  cases base with
  | member => cases notBase
  | _ => rfl

variable {base : Expression} {baseDoc : Doc}

theorem Laid.isMethod_surfaceBase (laid : base.Laid config baseDoc)
    (plain : base.isMethod = false) : base.surfaceBase.isMethod = false :=
  isMethod_inParens fun _ => laid.plain plain

theorem Laid.isPrefix_surfaceBase (laid : base.Laid config baseDoc)
    (plain : base.isMethod = false) : base.surfaceBase.isPrefix := by
  have callee := base.isCallee_surfaceBase
  rwa [laid.isMethod_surfaceBase plain, Bool.or_false] at callee

/-- Something that is selected from or called. -/
theorem Laid.cuts_base (laid : base.Laid config baseDoc) (rest : List Char)
    (ends : Token.EndsName rest) :
    (base.baseDoc baseDoc).Cuts config rest base.surfaceBase.Written := by
  refine laid.cuts_parenthesize _ (fun notBase => ?_) rest fun isBase => ?_
  · exact isMethod_eq_false_of_not_isBase (Bool.not_eq_true' .. ▸ notBase)
  · rw [Follows, form_of_isBase (Bool.not_eq_false' .. ▸ isBase)]
    exact ends

/-- A base is written with a name or a parenthesis in front. -/
theorem Laid.starts_base (laid : base.Laid config baseDoc) (further : Doc) :
    ∃ c more, base.baseDoc baseDoc ++ further = .char c :: more ∧ Form.base.canOpen c := by
  refine starts_append _ (starts_parenthesize laid.starts fun isBase c opens => ?_)
  rwa [form_of_isBase (Bool.not_eq_false' .. ▸ isBase)] at opens

/-- An opening bracket in front of an expression is one by itself. -/
theorem Laid.cuts_leftSquare {key : Expression} {keyDoc : Doc} (laid : key.Laid config keyDoc)
    (rest : List Char) : (Doc.ofText Token.Symbol.leftSquare.text).Cuts config
      (keyDoc.written config ++ rest) (Doc.One (.symbol .leftSquare)) := by
  refine Doc.cuts_symbol .leftSquare ?_
  obtain ⟨c, more, rfl, opens⟩ := laid.starts
  refine Token.Symbol.endsIn_cons ?_ _
  have both := Bool.and_eq_true .. ▸ Form.canOpen_imp opens
  exact Bool.and_eq_true .. ▸ ⟨(Bool.and_eq_true .. ▸ both.1).2, both.2⟩

/-- A selection by a value is read back. -/
theorem laid_index {key : Expression} {span : Span} {keyDoc : Doc}
    (baseLaid : base.Laid config baseDoc) (basePlain : base.isMethod = false)
    (keyLaid : key.Laid config keyDoc) (keyPlain : key.isMethod = false) :
    (index base key span).Laid config
      (base.baseDoc baseDoc ++ .char '[' :: keyDoc ++ [.char ']']) where
  cuts := by
    intro rest _
    have baseCuts (rest : List Char) :=
      baseLaid.cuts_base ('[' :: rest) (Token.endsName_cons rfl rest)
    have keyCuts := keyLaid.cuts (']' :: rest) (follows_of_stops (Token.stops_cons rfl rest))
    refine Doc.Cuts.mono
      (.append (.append (baseCuts _) (.append (keyLaid.cuts_leftSquare _) keyCuts))
      (Doc.cuts_mark .rightSquare (fun _ => rfl) rest)) ?_
    rintro _ ⟨_, _, rfl, ⟨before, _, rfl, baseWritten, _, tokens, rfl, ⟨opening, rfl, opens⟩,
      keyWritten⟩, closing, rfl, closes⟩
    rw [surface]
    exact written_index baseWritten (baseLaid.isPrefix_surfaceBase basePlain)
      (baseLaid.isMethod_surfaceBase basePlain) opens keyWritten (keyLaid.plain keyPlain) closes
  starts := by
    rw [List.append_assoc]
    exact baseLaid.starts_base _
  plain := fun _ => rfl

/-- A selection by a name is read back. -/
theorem laid_member {selector : Selector} {name : Name} {span : Span}
    (baseLaid : base.Laid config baseDoc) (basePlain : base.isMethod = false)
    (named : name.IsGrammatical) : (member base selector name span).Laid config
      (base.baseDoc baseDoc ++ Doc.ofText selector.text ++ Doc.ofText name.text) where
  cuts := by
    intro rest follows
    have ends : Token.EndsName rest := follows
    have baseCuts (rest : List Char) := baseLaid.cuts_base
      ((Doc.ofText selector.text).written config ++ rest) (by
        cases selector <;> exact Token.endsName_cons rfl _)
    rw [List.append_assoc]
    refine Doc.Cuts.mono (.append (by
        rw [Doc.written_append, List.append_assoc]
        exact baseCuts _) (.append (Doc.cuts_selector selector named rest)
      (Doc.cuts_name named ends))) ?_
    rintro _ ⟨before, _, rfl, baseWritten, _, _, rfl, ⟨mark, rfl, kind⟩, token, rfl, nameWritten⟩
    rw [surface]
    exact written_member baseWritten (baseLaid.isPrefix_surfaceBase basePlain)
      (baseLaid.isMethod_surfaceBase basePlain) kind nameWritten
  starts := by
    rw [List.append_assoc]
    exact baseLaid.starts_base _
  plain := by
    intro plain
    cases selector with
    | dot => rfl
    | colon => cases plain

/-! ### Names and literals -/

theorem starts_ofText {form : Form} {c : Char} (text : List Char) (opens : form.canOpen c) :
    ∃ d more, Doc.ofText (c :: text) = .char d :: more ∧ form.canOpen d := by
  refine ⟨c, Doc.ofText text, ?_, opens⟩
  have noLineFeed : c ≠ '\n' := by
    rintro rfl
    cases Form.canOpen_imp opens
  rw [Doc.ofText, List.map_cons, if_neg noLineFeed]
  rfl

theorem canOpen_of_isNameStart {form : Form} {c : Char} (start : Token.isNameStart c)
    (other : form ≠ .bareArgument) : form.canOpen c := by
  have opens : Expression.canOpen c := by
    rw [Expression.canOpen, Token.isSpace_of_isNameStart start]
    refine Bool.and_eq_true .. ▸ ⟨bne_iff_ne.2 ?_, bne_iff_ne.2 ?_⟩ <;> rintro rfl <;> cases start
  have noMinus : (c != '-') = true := by
    refine bne_iff_ne.2 ?_
    rintro rfl
    cases start
  cases form with
  | unary => exact opens
  | bareArgument => exact absurd rfl other
  | base | other => exact Bool.and_eq_true .. ▸ ⟨opens, noMinus⟩
  | binary => exact Bool.and_eq_true .. ▸ ⟨opens, Bool.or_eq_true .. ▸ .inl noMinus⟩

/-- A variable is read back. -/
theorem laid_name {identifier : Name} (named : identifier.IsGrammatical) :
    (name identifier).Laid config (Doc.ofText identifier.text) where
  cuts := by
    intro rest follows
    have ends : Token.EndsName rest := follows
    refine (Doc.cuts_name named ends).mono ?_
    rintro _ ⟨token, rfl, written⟩
    rw [surface]
    exact written_name written
  starts := by
    obtain ⟨c, more, same, start, -⟩ := named
    rw [same]
    exact starts_ofText more (canOpen_of_isNameStart start nofun)
  plain := fun _ => rfl

/-- A literal that is a reserved word. -/
theorem laid_word {constant : Literal} (word : Token.Keyword) (raw : constant.raw = word.text)
    (form : (literal constant).withoutParens.form = .other)
    (reads : ∀ token : Token, token.kind = .keyword word →
      (⟨constant.value, token.text, token.span⟩ : Literal).Reads token) :
    (literal constant).Laid config (Doc.ofText constant.raw) where
  cuts := by
    intro rest follows
    rw [Follows, form] at follows
    rw [raw, Doc.Cuts, Doc.written_ofText config (Doc.not_mem_word word)]
    refine (Token.cuts_word word (Token.Stops.endsName follows)).mono ?_
    rintro _ ⟨token, rfl, kind, text⟩
    rw [surface]
    refine written_of_reads (.literal (reads token kind)) ?_
    rw [text, ← raw]
    rfl
  starts := by
    obtain ⟨c, more, same, start, -⟩ := word.text_eq_cons
    rw [raw, same]
    exact starts_ofText more (canOpen_of_isNameStart start (by rw [form]; rintro ⟨⟩))
  plain := fun _ => rfl

/-- The remaining arguments are read back. -/
theorem laid_vararg {raw : List Char} {span : Span} (written : raw = Token.Symbol.dotDotDot.text) :
    (literal ⟨.vararg, raw, span⟩).Laid config (Doc.ofText raw) where
  cuts := by
    intro rest _
    rw [written, Doc.Cuts, Doc.written_ofText config (Doc.not_mem_symbol .dotDotDot)]
    refine (Token.cuts_symbol .dotDotDot fun _ _ => rfl).mono ?_
    rintro _ ⟨token, rfl, kind, text⟩
    rw [surface]
    refine written_of_reads (.literal (.vararg kind)) ?_
    rw [text]
    rfl
  starts := by
    rw [written]
    exact ⟨_, _, rfl, rfl⟩
  plain := fun _ => rfl

/-- A number is read back with its value. -/
theorem laid_number {value : Double} {raw : List Char} {span : Span}
    (number : Token.IsNumber raw) (named : Numeral.valueOf? raw = some value) :
    (literal ⟨.number value, raw, span⟩).Laid config
      (Doc.ofText (Literal.normalNumber raw value)) where
  cuts := by
    intro rest follows
    have written := Token.isNumber_normalNumber number named
    rw [Doc.Cuts, Doc.written_ofText config written.isLine.noLineFeed]
    refine (Token.cuts_number written (Token.Stops.endsNumber follows _)).mono ?_
    rintro _ ⟨token, rfl, kind, text⟩
    have found : Grammar.numberLiteral token = .ok ⟨.number value, token.text, token.span⟩ := by
      rw [Grammar.numberLiteral, text, Literal.valueOf?_normalNumber named]
    rw [surface]
    refine written_of_reads (.literal (.number kind found)) ?_
    have same : Literal.normalNumber token.text value = Literal.normalNumber raw value := by
      rw [text, Literal.normalNumber_normalNumber]
    exact congrArg (fun raw => literal ⟨.number value, raw, default⟩) same
  starts := by
    obtain ⟨c, more, same, starts, -⟩ := Token.isNumber_normalNumber number named
    rw [same]
    refine starts_ofText more (Bool.and_eq_true .. ▸ ⟨?_, ?_⟩)
    · rw [Expression.canOpen, Token.isSpace_of_startsNumber starts]
      exact Bool.and_eq_true .. ▸ ⟨bne_iff_ne.2 (Token.startsNumber_ne starts rfl rfl),
        bne_iff_ne.2 (Token.startsNumber_ne starts rfl rfl)⟩
    · exact bne_iff_ne.2 (Token.startsNumber_ne starts rfl rfl)
  plain := fun _ => rfl

/-- A string is read back with its bytes. -/
theorem laid_string {bytes : List UInt8} {raw : List Char} {span : Span} :
    (literal ⟨.string bytes, raw, span⟩).Laid config
      (Doc.ofText (Quoted.encode bytes config.quoteStyle)) where
  cuts := by
    intro rest _
    rw [Doc.Cuts, Doc.written_ofText config (Quoted.noLineFeed_encode bytes config.quoteStyle)]
    refine (Token.cuts_quoted bytes config.quoteStyle rest).mono ?_
    rintro _ ⟨token, rfl, kind, decoded⟩
    have found : Grammar.stringLiteral token = .ok ⟨.string bytes, token.text, token.span⟩ := by
      rw [Grammar.stringLiteral, if_neg (by rw [kind]; rintro ⟨⟩), decoded]
    rw [surface]
    exact written_of_reads (.literal (.string (.inl kind) found)) rfl
  starts := by
    unfold Quoted.encode
    dsimp only
    rcases config.quoteStyle.quoteFor_eq bytes with quote | quote
    · rw [quote]
      exact starts_ofText _ rfl
    · rw [quote]
      exact starts_ofText _ rfl
  plain := fun _ => rfl

/-- A literal that has a layout is read back. -/
theorem laid_literal {constant : Literal} (grammatical : constant.IsGrammatical) {doc : Doc}
    (laid : constant.doc config = .ok doc) : (literal constant).Laid config doc := by
  obtain ⟨value, raw, span⟩ := constant
  cases value with
  | nil =>
    cases laid
    exact laid_word .nilWord grammatical rfl fun _ => .nil
  | boolean value =>
    cases laid
    cases value with
    | true => exact laid_word .trueWord grammatical rfl fun _ => .true
    | false => exact laid_word .falseWord grammatical rfl fun _ => .false
  | vararg =>
    cases laid
    exact laid_vararg grammatical
  | number value =>
    rw [Literal.doc] at laid
    dsimp only at laid
    rw [Literal.numberDoc_eq_ok grammatical.2] at laid
    cases laid
    exact laid_number grammatical.1 grammatical.2
  | string bytes =>
    cases laid
    exact laid_string

/-! ### Calls -/

theorem areValues_cons {expression : Expression} {expressions : List Expression} :
    areValues (expression :: expressions) ↔
      expression.isMethod = false ∧ areValues expressions := by
  rw [areValues, List.all_cons, Bool.and_eq_true, Bool.not_eq_true']
  rfl

/-- Expressions with commas between them. -/
theorem AreLaid.cuts_commaSeparated {expressions : List Expression} {docs : List Doc}
    (laid : AreLaid config expressions docs) (nonempty : expressions ≠ [])
    (values : areValues expressions) {rest : List Char} (stops : Token.Stops rest) :
    (Doc.commaSeparated docs).Cuts config rest (WrittenAll (surfaces expressions)) := by
  induction laid with
  | nil => exact absurd rfl nonempty
  | @cons expression doc expressions docs first others inductionHypothesis =>
    obtain ⟨plain, values⟩ := areValues_cons.1 values
    have plain := first.plain plain
    cases others with
    | nil =>
      rw [Doc.commaSeparated_singleton]
      refine (first.cuts rest (follows_of_stops stops)).mono ?_
      rintro tokens written
      obtain ⟨read, reads, same⟩ := written.value plain
      refine ⟨[read], .single reads, ?_⟩
      simp only [surfaces, recastAll, same]
    | cons second others =>
      have further := inductionHypothesis (List.cons_ne_nil _ _) values
      have comma (rest : List Char) :=
        first.cuts (',' :: rest) (follows_of_stops (Token.stops_cons rfl rest))
      rw [Doc.commaSeparated_cons]
      refine Doc.Cuts.mono
        (.append (comma _) (.append (Doc.cuts_mark .comma (fun _ => rfl) _) further.space)) ?_
      rintro _ ⟨before, _, rfl, written, _, after, rfl, ⟨mark, rfl, kind⟩, more, moreReads,
        moreSame⟩
      obtain ⟨read, reads, same⟩ := written.value plain
      refine ⟨read :: more, .cons reads kind moreReads, ?_⟩
      rw [surfaces, recastAll, recastAll, same, moreSame]

/-- The arguments of a call between parentheses. -/
theorem AreLaid.cuts_arguments {arguments : List Expression} {docs : List Doc}
    (laid : AreLaid config arguments docs) (values : areValues arguments) {rest : List Char}
    (stops : Token.Stops rest) :
    (Doc.commaSeparated docs).Cuts config rest (WrittenArguments (surfaces arguments)) := by
  cases arguments with
  | nil =>
    cases laid
    refine Doc.Cuts.nil.mono ?_
    rintro _ rfl
    exact ⟨[], .nil, rfl⟩
  | cons argument arguments =>
    refine (laid.cuts_commaSeparated (List.cons_ne_nil _ _) values stops).mono ?_
    rintro tokens ⟨read, reads, same⟩
    exact ⟨read, .some reads, same⟩

/-- A call keeps its parentheses where its argument cannot do without. -/
theorem callOf_eq_call {base : Expression} {arguments : List Expression}
    (notBare : ∀ argument, arguments = [argument] → argument.isBareArgument = false) :
    callOf base arguments = .call base arguments default := by
  unfold callOf
  split
  · cases notBare _ rfl
  · cases notBare _ rfl
  · rfl

/-- A call with a single argument that is written without parentheses. -/
theorem written_callOf_bare {base argument : Expression} {before tokens : List Token}
    (baseWritten : base.Written before) (callee : base.isPrefix || base.isMethod)
    (written : argument.Written tokens) (bare : argument.isBareArgument) :
    (callOf base [argument]).Written (before ++ tokens) := by
  unfold callOf
  split
  next same =>
    cases same
    obtain ⟨read, reads, same⟩ := written.value rfl
    have single : ∃ token, tokens = [token] := by
      cases reads with
      | literal => exact ⟨_, rfl⟩
      | _ =>
        rw [Expression.recast, Expression.recast] at same
        cases same
    obtain ⟨token, rfl⟩ := single
    exact written_stringCall baseWritten callee written rfl
  next same =>
    cases same
    exact written_tableCall baseWritten callee written
  next noString noTable =>
    cases argument with
    | literal constant =>
      obtain ⟨value, raw, span⟩ := constant
      cases value with
      | string => exact absurd rfl (noString _ _ _)
      | _ => cases bare
    | table => exact absurd rfl (noTable _ _)
    | _ => cases bare

theorem isNamePart_of_canOpen_bare {c : Char} (opens : Form.bareArgument.canOpen c) :
    Token.isNamePart c = false :=
  Bool.not_eq_true' .. ▸ (Bool.and_eq_true .. ▸ opens).2

/-- A call is written with its base and arguments as they are written. -/
theorem surface_call (base : Expression) (arguments : List Expression) (span : Span) :
    (call base arguments span).surface = callOf base.surfaceBase (surfaces arguments) := by
  rw [surface]
  rfl

/-- A call without parentheses is read back with its one argument. -/
theorem cuts_call_bare {argument : Expression} {doc : Doc} {span : Span}
    (baseLaid : base.Laid config baseDoc) (laid : argument.Laid config doc)
    (bare : argument.withoutParens.isBareArgument) (rest : List Char) :
    (base.baseDoc baseDoc ++ doc).Cuts config rest
      (call base [argument] span).surface.Written := by
  have form : argument.withoutParens.form = .bareArgument := by
    rw [isBareArgument_eq] at bare
    exact eq_of_beq bare
  have ends : Token.EndsName (doc.written config ++ rest) := by
    obtain ⟨c, more, rfl, opens⟩ := laid.starts
    rw [form] at opens
    exact Token.endsName_cons (isNamePart_of_canOpen_bare opens) _
  have cuts := laid.cuts rest (by rw [Follows, form]; trivial)
  refine Doc.Cuts.mono (.append (baseLaid.cuts_base _ ends) cuts) ?_
  rintro _ ⟨before, tokens, rfl, baseWritten, written⟩
  rw [surface_call, surfaces, surfaces]
  exact written_callOf_bare baseWritten base.isCallee_surfaceBase written
    (by rwa [isBareArgument_surface])

/-- A call in parentheses is read back with all its arguments. -/
theorem AreLaid.cuts_call {arguments : List Expression} {docs : List Doc} {span : Span}
    (baseLaid : base.Laid config baseDoc) (laid : AreLaid config arguments docs)
    (values : areValues arguments)
    (notBare : ∀ argument, arguments = [argument] →
      argument.withoutParens.isBareArgument = false) (rest : List Char) :
    (base.baseDoc baseDoc ++ Doc.parenthesize true (Doc.commaSeparated docs)).Cuts config rest
      (call base arguments span).surface.Written := by
  have baseCuts (rest : List Char) :=
    baseLaid.cuts_base ('(' :: rest) (Token.endsName_cons rfl rest)
  have inner := laid.cuts_arguments values (Token.stops_cons (show Token.isStop ')' from rfl) rest)
  refine Doc.Cuts.mono (.append (baseCuts _) (.append
    (.append (Doc.cuts_mark .leftParen (fun _ => rfl) _) inner)
    (Doc.cuts_mark .rightParen (fun _ => rfl) rest))) ?_
  rintro _ ⟨before, _, rfl, baseWritten, _, _, rfl, ⟨_, tokens, rfl, ⟨opening, rfl, opens⟩,
    written⟩, closing, rfl, closes⟩
  have notBare : ∀ argument, surfaces arguments = [argument] →
      argument.isBareArgument = false := by
    intro argument same
    match arguments, same with
    | [single], same =>
      rw [surfaces, surfaces] at same
      cases same
      rw [isBareArgument_surface]
      exact notBare single rfl
  rw [surface_call, callOf_eq_call notBare]
  have whole : (call _ _ default).Written _ :=
    written_call baseWritten base.isCallee_surfaceBase opens written closes
  rwa [List.append_assoc] at whole

/-- A call with its arguments in parentheses, unless a single one goes without. -/
theorem laid_call {arguments : List Expression} {docs : List Doc} {span : Span}
    (baseLaid : base.Laid config baseDoc) (laid : AreLaid config arguments docs)
    (values : areValues arguments) : (call base arguments span).Laid config
      (base.baseDoc baseDoc ++ argumentsDoc arguments docs) where
  cuts := by
    intro rest follows
    clear follows
    unfold argumentsDoc
    split
    next argument =>
      cases laid with
      | cons first none =>
        cases none
        rw [Doc.commaSeparated_singleton]
        cases bare : argument.withoutParens.isBareArgument with
        | true => exact cuts_call_bare baseLaid first bare rest
        | false =>
          have alone : ∀ other, [argument] = [other] →
              other.withoutParens.isBareArgument = false := by
            intro other same
            cases same
            exact bare
          have cuts : Doc.Cuts config _ rest (call base [argument] span).surface.Written :=
            AreLaid.cuts_call baseLaid (.cons first .nil) values alone rest
          rwa [Doc.commaSeparated_singleton] at cuts
    next several =>
      exact AreLaid.cuts_call baseLaid laid values
        (fun argument same => absurd same (several argument)) rest
  starts := baseLaid.starts_base _
  plain := by
    intro _
    rw [surface_call]
    unfold callOf
    split <;> rfl

/-- A call with a string behind what is called. -/
theorem laid_stringCall {argument : Literal} {span : Span} {doc : Doc}
    (baseLaid : base.Laid config baseDoc) (isString : argument.isString)
    (laid : argument.doc config = .ok doc) :
    (stringCall base argument span).Laid config (base.baseDoc baseDoc ++ doc) where
  cuts := by
    intro rest _
    obtain ⟨value, raw, argumentSpan⟩ := argument
    cases value with
    | string bytes =>
      cases laid
      have string : (literal ⟨.string bytes, raw, argumentSpan⟩).Laid config _ := laid_string
      have call : Doc.Cuts config _ rest (call base [literal _] span).surface.Written :=
        cuts_call_bare baseLaid string rfl rest
      rw [surface_call] at call
      rw [surface]
      exact call.mono fun tokens written => written.congr rfl
    | _ => cases isString
  starts := baseLaid.starts_base _
  plain := fun _ => by rw [surface]; rfl

/-- A call with a table behind what is called. -/
theorem laid_tableCall {fields : List Field} {tableSpan span : Span} {doc : Doc}
    (baseLaid : base.Laid config baseDoc) (laid : (table fields tableSpan).Laid config doc) :
    (tableCall base fields tableSpan span).Laid config (base.baseDoc baseDoc ++ doc) where
  cuts := by
    intro rest _
    have call : Doc.Cuts config _ rest (call base [table fields tableSpan] span).surface.Written :=
      cuts_call_bare baseLaid laid rfl rest
    rw [surface_call, surfaces, surfaces, surface] at call
    rw [surface]
    exact call.mono fun tokens written => written.congr rfl
  starts := baseLaid.starts_base _
  plain := fun _ => by rw [surface]; rfl

/-- Parentheses that cut values down to one, or none. -/
theorem laid_group {inner : Expression} {span : Span} {doc : Doc} (laid : inner.Laid config doc)
    (plain : inner.isMethod = false) :
    (group inner span).Laid config (Doc.parenthesize inner.isMultipleValue doc) where
  cuts := by
    intro rest follows
    rw [surface]
    refine laid.cuts_parenthesize inner.isMultipleValue (fun _ => plain) rest fun single => ?_
    rwa [Follows, form_withoutParens_group single] at follows
  starts := by
    refine starts_parenthesize laid.starts fun single c opens => ?_
    rwa [form_withoutParens_group single]
  plain := by
    intro _
    rw [surface]
    exact isMethod_inParens fun _ => laid.plain plain

end Expression

end LuaStyle
