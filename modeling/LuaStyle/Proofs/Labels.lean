/-
This file proves that the labels of an outline show, and so do not break their lines.

A label is made of words that stand in it whatever the tree, of names and numbers, which have only
letters, digits and a few marks in them, and of the source texts of strings and comments, which are
escaped. None of these has a character in it that is not printable.
-/

import LuaStyle.Proofs.Entries
import LuaStyle.Proofs.Grammatical

namespace LuaStyle

/-! ### Printable texts -/

/-- All characters of the text are shown as themselves. -/
def IsShown (text : List Char) : Prop :=
  ∀ c ∈ text, isPrintable c

theorem IsShown.append {first second : List Char} (shown : IsShown first)
    (further : IsShown second) : IsShown (first ++ second) :=
  List.forall_mem_append.2 ⟨shown, further⟩

theorem IsShown.cons {c : Char} {rest : List Char} (first : isPrintable c)
    (others : IsShown rest) : IsShown (c :: rest) :=
  List.forall_mem_cons.2 ⟨first, others⟩

theorem isShown_nil : IsShown [] :=
  List.forall_mem_nil _

/-- The characters of ASCII from the space to the tilde are printable. -/
theorem isPrintable_of_ascii {c : Char} (low : 0x20 ≤ c.toNat) (high : c.toNat < 0x7F) :
    isPrintable c := by
  have apart : ∀ range ∈ hiddenInBasicPlane, 0x7F ≤ range.1 ∨ range.2 < 0x20 := by
    decide +kernel
  have basic : c.toNat < 0x10000 := by omega
  rw [isPrintable]
  dsimp only
  rw [if_pos basic]
  refine List.all_eq_true.2 fun range member => ?_
  rw [Bool.or_eq_true, decide_eq_true_iff, decide_eq_true_iff]
  rcases apart range member with above | below
  · exact .inl (Nat.lt_of_lt_of_le high above)
  · exact .inr (Nat.lt_of_lt_of_le below low)

/-- The text has only characters of the ASCII set in it, and no control characters. -/
def isPlainText (text : List Char) : Bool :=
  text.all fun c => 0x20 ≤ c.toNat && c.toNat < 0x7F

/-- A fixed text of such characters is shown as it is. -/
theorem isShown_of_isPlainText {text : List Char} (plain : isPlainText text) : IsShown text := by
  intro c member
  have inside := List.all_eq_true.1 plain c member
  rw [Bool.and_eq_true, decide_eq_true_iff, decide_eq_true_iff] at inside
  exact isPrintable_of_ascii inside.1 inside.2

theorem isPrintable_of_isAlphanum {c : Char} (plain : c.isAlphanum) : isPrintable c := by
  rw [Char.isAlphanum, Bool.or_eq_true, Token.isAlpha_iff, Char.isDigit, Bool.and_eq_true,
    decide_eq_true_iff, decide_eq_true_iff] at plain
  have space : 'A'.toNat = 65 ∧ 'Z'.toNat = 90 ∧ 'a'.toNat = 97 ∧ 'z'.toNat = 122 := by decide
  have inside : 0x20 ≤ c.toNat ∧ c.toNat < 0x7F := by
    rcases plain with (⟨low, high⟩ | ⟨low, high⟩) | ⟨low, high⟩
    · omega
    · omega
    · exact ⟨Nat.le_trans (by decide) low, Nat.lt_of_le_of_lt high (by decide)⟩
  exact isPrintable_of_ascii inside.1 inside.2

/-- What names are made of is printable. -/
theorem isPrintable_of_isNamePart {c : Char} (part : Token.isNamePart c) : isPrintable c := by
  rcases Bool.or_eq_true .. ▸ part with plain | same
  · exact isPrintable_of_isAlphanum plain
  · rw [eq_of_beq same]
    exact isPrintable_of_ascii (by decide) (by decide)

/-- A name is shown as it is. -/
theorem Name.IsGrammatical.isShown {name : Name} (grammatical : name.IsGrammatical) :
    IsShown name.text := by
  obtain ⟨c, rest, same, starts, parts, -⟩ := grammatical
  rw [same]
  exact .cons (isPrintable_of_isNamePart (Token.isNamePart_of_isNameStart starts)) fun d member =>
    isPrintable_of_isNamePart (parts d member)

/-- The name of a function is shown as it is. -/
theorem FunctionName.IsGrammatical.isShown {name : FunctionName}
    (grammatical : name.IsGrammatical) : IsShown name.text := by
  obtain ⟨-, path, method⟩ := grammatical
  refine .append ?_ ?_
  · generalize name.path = names at path
    induction names with
    | nil => exact isShown_nil
    | cons first rest inductionHypothesis =>
      obtain ⟨firstShown, others⟩ := List.forall_mem_cons.1 path
      cases rest with
      | nil => exact firstShown.isShown.append isShown_nil
      | cons second rest =>
        exact firstShown.isShown.append
          (.append (isShown_of_isPlainText rfl) (inductionHypothesis others))
  · cases same : name.method with
    | none => exact isShown_nil
    | some last =>
      exact .cons (isPrintable_of_ascii (by decide) (by decide)) (method last same).isShown

/-- A number is shown as it is. -/
theorem Token.IsNumber.isShown {text : List Char} (number : Token.IsNumber text) :
    IsShown text := by
  intro c member
  rcases number.mem c member with plain | other
  · exact isPrintable_of_isAlphanum plain
  · exact isShown_of_isPlainText (by decide : isPlainText ['.', '_', '+', '-']) c other

/-! ### Escaped texts -/

namespace Escaped

/-- The digits of a code point are hexadecimal digits. -/
theorem exists_digit {number : Nat} {c : Char} (member : c ∈ hexDigits number) :
    ∃ digit < 16, c = Nat.digitChar digit := by
  induction number using Nat.strongRecOn with
  | ind number inductionHypothesis =>
    rw [hexDigits, Nat.toDigits_eq_if (by decide)] at member
    split at member
    next small => exact ⟨number, small, List.mem_singleton.1 member⟩
    next large =>
      rcases List.mem_append.1 member with early | last
      · exact inductionHypothesis _ (by omega) early
      · exact ⟨number % 16, Nat.mod_lt _ (by decide), List.mem_singleton.1 last⟩

/-- A code point is written with printable characters only. -/
theorem isShown_codePoint (c : Char) : IsShown (codePoint c) := by
  have digits : IsShown (hexDigits c.toNat) := by
    intro d member
    obtain ⟨digit, small, rfl⟩ := exists_digit member
    have all : ∀ digit < 16, isPlainText [Nat.digitChar digit] := by decide
    exact isShown_of_isPlainText (all digit small) _ List.mem_cons_self
  have opening : IsShown ['\\', 'u', '\x7b'] := isShown_of_isPlainText (by decide)
  exact (opening.append digits).append (isShown_of_isPlainText (by decide))

/-- Whatever a character is, what is written for it is printable. -/
theorem isShown_ofChar (c : Char) : IsShown (ofChar c) := by
  unfold ofChar
  split
  · exact isShown_of_isPlainText (by decide)
  split
  · exact isShown_of_isPlainText (by decide)
  split
  · exact isShown_of_isPlainText (by decide)
  split
  · exact isShown_of_isPlainText (by decide)
  split
  next quoted =>
    simp only [Bool.or_eq_true, decide_eq_true_iff] at quoted
    rcases quoted with (rfl | rfl) | rfl <;> exact isShown_of_isPlainText (by decide)
  split
  next printable => exact .cons printable isShown_nil
  · exact isShown_codePoint c

/-- Whatever the text, nothing in its displayed form breaks the line. -/
theorem isShown_ofText (text : List Char) : IsShown (ofText text) := by
  cases text with
  | nil => exact isShown_nil
  | cons first rest =>
    refine .append ?_ fun c member => ?_
    · split
      · exact isShown_codePoint first
      · exact isShown_ofChar first
    · obtain ⟨d, -, inside⟩ := List.mem_flatMap.1 member
      exact isShown_ofChar d c inside

end Escaped

/-! ### Labels of entries -/

/-- The labels of the entry and of all below it are printable. -/
inductive Entry.IsLegible : Entry → Prop
  | node {label below} :
    IsShown label → (∀ entry ∈ below, entry.IsLegible) → IsLegible (.node label below)

/-- A label and a text in parentheses are shown if both are. -/
theorem isShown_labelled {label text : List Char} (fixed : isPlainText label)
    (shown : IsShown text) : IsShown (Outline.labelled label text) := by
  have opening : IsShown [' ', '('] := isShown_of_isPlainText rfl
  have front := (isShown_of_isPlainText fixed).append (opening.append shown)
  exact front.append (isShown_of_isPlainText rfl)

/-- The label of a declared function is shown as it is. -/
theorem FunctionHead.IsDeclaration.isShown {head : FunctionHead} (declared : head.IsDeclaration) :
    IsShown head.label := by
  obtain ⟨_ | name, _ | _⟩ := head
  · exact declared.elim
  · exact declared.elim
  · exact isShown_labelled rfl declared.1.isShown
  · exact isShown_labelled rfl declared.1.isShown

namespace Entry.IsLegible

variable {label : List Char} {entry : Entry} {entries more : List Entry}

theorem leaf (shown : IsShown label) : (Entry.leaf label).IsLegible :=
  .node shown (List.forall_mem_nil _)

/-- An entry whose label does not depend on the tree. -/
theorem fixed (plain : isPlainText label) (below : ∀ entry ∈ entries, entry.IsLegible) :
    (Entry.node label entries).IsLegible :=
  .node (isShown_of_isPlainText plain) below

theorem nil : ∀ entry ∈ ([] : List Entry), entry.IsLegible :=
  List.forall_mem_nil _

theorem cons (first : entry.IsLegible) (others : ∀ each ∈ entries, each.IsLegible) :
    ∀ each ∈ entry :: entries, each.IsLegible :=
  List.forall_mem_cons.2 ⟨first, others⟩

end Entry.IsLegible

/-- The entry of a comment is legible, whatever its text. -/
theorem Comment.isLegible (comment : Comment) : comment.entry.IsLegible :=
  .leaf (isShown_labelled rfl (Escaped.isShown_ofText comment.raw))

theorem Name.IsGrammatical.isLegible {name : Name} (grammatical : name.IsGrammatical) :
    (Entry.leaf name.label).IsLegible :=
  .leaf (isShown_labelled rfl grammatical.isShown)

theorem Name.areLegible {names : List Name} (grammatical : ∀ name ∈ names, name.IsGrammatical) :
    ∀ entry ∈ names.map fun name => Entry.leaf name.label, entry.IsLegible :=
  List.forall_mem_map.2 fun name member => (grammatical name member).isLegible

theorem Parameter.IsGrammatical.isLegible {parameter : Parameter}
    (grammatical : parameter.IsGrammatical) : (Entry.leaf parameter.label).IsLegible := by
  cases parameter with
  | name identifier => exact Name.IsGrammatical.isLegible grammatical
  | vararg => exact .leaf (isShown_of_isPlainText rfl)

/-- The label of a literal is shown, since a string in it is escaped. -/
theorem Literal.IsGrammatical.isShown_label {constant : Literal}
    (grammatical : constant.IsGrammatical) : IsShown constant.label := by
  obtain ⟨value, raw, span⟩ := constant
  cases value with
  | nil => exact isShown_of_isPlainText rfl
  | boolean value => cases value <;> exact isShown_of_isPlainText rfl
  | number value => exact isShown_labelled rfl grammatical.1.isShown
  | string bytes => exact (isShown_of_isPlainText rfl).append (Escaped.isShown_ofText raw)
  | vararg => exact isShown_of_isPlainText rfl

/-- The entries of the parts of a function are legible. -/
theorem Parameter.AreGrammatical.isLegible {parameters : List Parameter} {body : List Entry}
    (grammatical : Parameter.AreGrammatical parameters)
    (legible : ∀ entry ∈ body, entry.IsLegible) :
    ∀ entry ∈ Parameter.entries parameters body, entry.IsLegible := by
  refine List.forall_mem_append.2 ⟨?_, .cons (.fixed rfl legible) .nil⟩
  split
  · exact .nil
  · refine .cons (.fixed rfl ?_) .nil
    exact List.forall_mem_map.2 fun parameter member => (grammatical.1 parameter member).isLegible

section

open Node (areGrammatical_cons areGrammatical_append)

mutual

/-- The entry of an expression is legible. -/
theorem Expression.isLegible : ∀ expression : Expression,
    Node.AreGrammatical expression.nodes → expression.entry.IsLegible
  | .binary operator left right _, grammatical => by
    obtain ⟨-, inside⟩ := areGrammatical_cons.1 grammatical
    obtain ⟨leftInside, rightInside⟩ := areGrammatical_append.1 inside
    refine .node (isShown_labelled rfl (isShown_of_isPlainText (by cases operator <;> rfl))) ?_
    exact .cons (left.isLegible leftInside) (.cons (right.isLegible rightInside) .nil)
  | .unary operator argument _, grammatical => by
    obtain ⟨-, inside⟩ := areGrammatical_cons.1 grammatical
    refine .node (isShown_labelled rfl (isShown_of_isPlainText (by cases operator <;> rfl))) ?_
    exact .cons (argument.isLegible inside) .nil
  | .call base arguments _, grammatical => by
    obtain ⟨-, inside⟩ := areGrammatical_cons.1 grammatical
    obtain ⟨baseInside, argumentsInside⟩ := areGrammatical_append.1 inside
    have callee := base.isLegible baseInside
    have below := Expression.areLegible arguments argumentsInside
    exact .fixed rfl (.cons (.fixed rfl (.cons callee .nil)) (.cons (.fixed rfl below) .nil))
  | .stringCall base argument _, grammatical => by
    obtain ⟨⟨-, isString⟩, inside⟩ := areGrammatical_cons.1 grammatical
    have label := (Literal.isGrammatical_of_isString isString).isShown_label
    exact .fixed rfl (.cons (base.isLegible inside) (.cons (.leaf label) .nil))
  | .tableCall base fields _ _, grammatical => by
    obtain ⟨-, inside⟩ := areGrammatical_cons.1 grammatical
    obtain ⟨baseInside, fieldsInside⟩ := areGrammatical_append.1 inside
    have below := Field.areLegible fields fieldsInside
    exact .fixed rfl (.cons (base.isLegible baseInside) (.cons (.fixed rfl below) .nil))
  | .function head parameters body _, grammatical => by
    obtain ⟨⟨rfl, named, -⟩, inside⟩ := areGrammatical_cons.1 grammatical
    exact .fixed rfl (named.isLegible (Statement.areLegible body inside))
  | .group inner _, grammatical => by
    obtain ⟨-, inside⟩ := areGrammatical_cons.1 grammatical
    exact .fixed rfl (.cons (inner.isLegible inside) .nil)
  | .name identifier, grammatical => by
    obtain ⟨named, -⟩ := areGrammatical_cons.1 grammatical
    exact .leaf (isShown_labelled rfl (Name.IsGrammatical.isShown named))
  | .index base key _, grammatical => by
    obtain ⟨-, inside⟩ := areGrammatical_cons.1 grammatical
    obtain ⟨baseInside, keyInside⟩ := areGrammatical_append.1 inside
    exact .fixed rfl (.cons (base.isLegible baseInside) (.cons (key.isLegible keyInside) .nil))
  | .member base selector name _, grammatical => by
    obtain ⟨⟨-, named⟩, inside⟩ := areGrammatical_cons.1 grammatical
    have mark : IsShown selector.text := isShown_of_isPlainText (by cases selector <;> rfl)
    refine .node (isShown_labelled rfl (mark.append named.isShown)) ?_
    exact .cons (base.isLegible inside) .nil
  | .literal constant, grammatical => by
    obtain ⟨written, -⟩ := areGrammatical_cons.1 grammatical
    exact .leaf (Literal.IsGrammatical.isShown_label written)
  | .table fields _, grammatical => by
    obtain ⟨-, inside⟩ := areGrammatical_cons.1 grammatical
    exact .fixed rfl (Field.areLegible fields inside)

theorem Expression.areLegible : ∀ expressions : List Expression,
    Node.AreGrammatical (Expression.nodesOfAll expressions) →
      ∀ entry ∈ Expression.entries expressions, entry.IsLegible
  | [], _ => .nil
  | expression :: rest, grammatical => by
    obtain ⟨first, others⟩ := areGrammatical_append.1 grammatical
    exact .cons (expression.isLegible first) (Expression.areLegible rest others)

theorem Expression.isLegible_step : ∀ step : Option Expression,
    Node.AreGrammatical (Expression.nodesOfOptional step) →
      ∀ entry ∈ Expression.stepEntries step, entry.IsLegible
  | none, _ => .nil
  | some step, grammatical => .cons (.fixed rfl (.cons (step.isLegible grammatical) .nil)) .nil

theorem Field.isLegible : ∀ field : Field,
    Node.AreGrammatical field.nodes → field.entry.IsLegible
  | .keyed key value _, grammatical => by
    obtain ⟨-, inside⟩ := areGrammatical_cons.1 grammatical
    obtain ⟨keyInside, valueInside⟩ := areGrammatical_append.1 inside
    exact .fixed rfl (.cons (key.isLegible keyInside) (.cons (value.isLegible valueInside) .nil))
  | .named name value _, grammatical => by
    obtain ⟨⟨named, -⟩, inside⟩ := areGrammatical_cons.1 grammatical
    refine .node (isShown_labelled rfl named.isShown) ?_
    exact .cons (value.isLegible inside) .nil
  | .positional value, grammatical => value.isLegible (areGrammatical_cons.1 grammatical).2
  | .comment remark, _ => remark.isLegible

theorem Field.areLegible : ∀ fields : List Field,
    Node.AreGrammatical (Field.nodesOfAll fields) →
      ∀ entry ∈ Field.entries fields, entry.IsLegible
  | [], _ => .nil
  | field :: rest, grammatical => by
    obtain ⟨first, others⟩ := areGrammatical_append.1 grammatical
    exact .cons (field.isLegible first) (Field.areLegible rest others)

theorem Clause.isLegible : ∀ clause : Clause,
    Node.AreGrammatical clause.nodes → clause.entry.IsLegible
  | .guarded word condition body _, grammatical => by
    obtain ⟨-, inside⟩ := areGrammatical_cons.1 grammatical
    obtain ⟨conditionInside, bodyInside⟩ := areGrammatical_append.1 inside
    refine .node (isShown_of_isPlainText (by cases word <;> rfl)) ?_
    have first := condition.isLegible conditionInside
    have below := Statement.areLegible body bodyInside
    exact .cons (.fixed rfl (.cons first .nil)) (.cons (.fixed rfl below) .nil)
  | .otherwise body _, grammatical => by
    obtain ⟨-, inside⟩ := areGrammatical_cons.1 grammatical
    exact .fixed rfl (.cons (.fixed rfl (Statement.areLegible body inside)) .nil)

theorem Clause.areLegible : ∀ clauses : List Clause,
    Node.AreGrammatical (Clause.nodesOfAll clauses) →
      ∀ entry ∈ Clause.entries clauses, entry.IsLegible
  | [], _ => .nil
  | clause :: rest, grammatical => by
    obtain ⟨first, others⟩ := areGrammatical_append.1 grammatical
    exact .cons (clause.isLegible first) (Clause.areLegible rest others)

/-- The entry of a statement is legible. -/
theorem Statement.isLegible : ∀ statement : Statement,
    Node.AreGrammatical statement.nodes → statement.entry.IsLegible
  | .assignment targets values _, grammatical => by
    obtain ⟨-, inside⟩ := areGrammatical_cons.1 grammatical
    obtain ⟨targetsInside, valuesInside⟩ := areGrammatical_append.1 inside
    have assigned := Expression.areLegible targets targetsInside
    have below := Expression.areLegible values valuesInside
    exact .fixed rfl (.cons (.fixed rfl assigned) (.cons (.fixed rfl below) .nil))
  | .breakLoop _, _ => .leaf (isShown_of_isPlainText rfl)
  | .call expression _, grammatical => by
    obtain ⟨-, inside⟩ := areGrammatical_cons.1 grammatical
    exact .fixed rfl (.cons (expression.isLegible inside) .nil)
  | .comment remark, _ => remark.isLegible
  | .doBlock body _, grammatical => by
    obtain ⟨-, inside⟩ := areGrammatical_cons.1 grammatical
    exact .fixed rfl (Statement.areLegible body inside)
  | .genericFor declared iterators body _, grammatical => by
    obtain ⟨⟨-, named, -⟩, inside⟩ := areGrammatical_cons.1 grammatical
    obtain ⟨iteratorsInside, bodyInside⟩ := areGrammatical_append.1 inside
    have names := Name.areLegible named
    have drawn := Expression.areLegible iterators iteratorsInside
    have below := Statement.areLegible body bodyInside
    exact .fixed rfl
      (.cons (.fixed rfl names) (.cons (.fixed rfl drawn) (.cons (.fixed rfl below) .nil)))
  | .numericFor counter first last step body _, grammatical => by
    obtain ⟨⟨named, -⟩, inside⟩ := areGrammatical_cons.1 grammatical
    obtain ⟨inside, bodyInside⟩ := areGrammatical_append.1 inside
    obtain ⟨inside, stepInside⟩ := areGrammatical_append.1 inside
    obtain ⟨firstInside, lastInside⟩ := areGrammatical_append.1 inside
    refine .node (isShown_labelled rfl named.isShown) ?_
    refine List.forall_mem_append.2 ⟨List.forall_mem_append.2 ⟨?_, ?_⟩, ?_⟩
    · exact .cons (.fixed rfl (.cons (first.isLegible firstInside) .nil))
        (.cons (.fixed rfl (.cons (last.isLegible lastInside) .nil)) .nil)
    · exact Expression.isLegible_step step stepInside
    · exact .cons (.fixed rfl (Statement.areLegible body bodyInside)) .nil
  | .function head parameters body _, grammatical => by
    obtain ⟨⟨declared, parametersNamed, -⟩, inside⟩ := areGrammatical_cons.1 grammatical
    exact .node declared.isShown (parametersNamed.isLegible (Statement.areLegible body inside))
  | .goto target _, grammatical => by
    obtain ⟨named, -⟩ := areGrammatical_cons.1 grammatical
    exact .leaf (isShown_labelled rfl (Name.IsGrammatical.isShown named))
  | .ifElse clauses _, grammatical => by
    obtain ⟨-, inside⟩ := areGrammatical_cons.1 grammatical
    exact .fixed rfl (Clause.areLegible clauses inside)
  | .label name _, grammatical => by
    obtain ⟨named, -⟩ := areGrammatical_cons.1 grammatical
    exact .leaf (isShown_labelled rfl (Name.IsGrammatical.isShown named))
  | .localVariables declared values _, grammatical => by
    obtain ⟨⟨-, named, -⟩, inside⟩ := areGrammatical_cons.1 grammatical
    have names := Name.areLegible named
    refine .fixed rfl (.cons (.fixed rfl names) ?_)
    split
    · exact .nil
    · exact .cons (.fixed rfl (Expression.areLegible values inside)) .nil
  | .repeatUntil body condition _, grammatical => by
    obtain ⟨-, inside⟩ := areGrammatical_cons.1 grammatical
    obtain ⟨bodyInside, conditionInside⟩ := areGrammatical_append.1 inside
    have below := Statement.areLegible body bodyInside
    have last := condition.isLegible conditionInside
    exact .fixed rfl (.cons (.fixed rfl below) (.cons (.fixed rfl (.cons last .nil)) .nil))
  | .returnValues values _, grammatical => by
    obtain ⟨-, inside⟩ := areGrammatical_cons.1 grammatical
    exact .fixed rfl (Expression.areLegible values inside)
  | .whileLoop condition body _, grammatical => by
    obtain ⟨-, inside⟩ := areGrammatical_cons.1 grammatical
    obtain ⟨conditionInside, bodyInside⟩ := areGrammatical_append.1 inside
    have first := condition.isLegible conditionInside
    have below := Statement.areLegible body bodyInside
    exact .fixed rfl (.cons (.fixed rfl (.cons first .nil)) (.cons (.fixed rfl below) .nil))

/-- The entries of a block are legible. -/
theorem Statement.areLegible : ∀ body : List Statement,
    Node.AreGrammatical (Statement.nodesOfAll body) →
      ∀ entry ∈ Statement.entries body, entry.IsLegible
  | [], _ => .nil
  | statement :: rest, grammatical => by
    obtain ⟨first, others⟩ := areGrammatical_append.1 grammatical
    exact .cons (statement.isLegible first) (Statement.areLegible rest others)

end

end

end LuaStyle
