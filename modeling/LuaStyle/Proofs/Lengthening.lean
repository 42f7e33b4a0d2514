/-
This file proves that the lexer cuts a text at the same places when some of its characters are
written as several ones.

The lexer asks for letters, digits and marks, and for brackets made of marks. If a character is none
of these, nor any of the characters that are written for it, then the lexer passes over the run of
them, or stops in front of it, as it does with the character. What it makes of them between quotes
is left open here: a line break ends a string and other characters do not, and a backslash takes
only the first character of a run with it.
-/

import LuaStyle.Proofs.Spelled

namespace LuaStyle

open Token

/-- A way to write some of the characters that are not part of code as runs of such characters. -/
structure Lengthening where
  /-- The character may be replaced, and may be one of those that stand for another. -/
  IsLong : Char → Prop
  /-- What is written for a character. -/
  run : Char → List Char
  /-- All other characters stay as they are. -/
  run_short : ∀ c, ¬IsLong c → run c = [c]
  /-- Nothing gets lost, and no other characters come in. -/
  run_long : ∀ c, IsLong c → run c ≠ [] ∧ ∀ d ∈ run c, IsLong d
  /-- Names and numbers have none of these characters in them. -/
  isNamePart_eq : ∀ c, IsLong c → isNamePart c = false
  /-- Marks have none of these characters in them. -/
  notMem_text : ∀ c, IsLong c → ∀ mark : Symbol, c ∉ mark.text
  /-- Either all of these characters end a line, or none. -/
  isLineBreak_eq : ∀ c d, IsLong c → IsLong d → isLineBreak c = isLineBreak d

namespace Lengthening

variable {lengthening : Lengthening}

/-- The text as it is written. -/
def write (lengthening : Lengthening) (text : List Char) : List Char :=
  text.flatMap lengthening.run

/-- The kind of a token and how much of a text belongs to it, counted as it is written. -/
def extent (lengthening : Lengthening) (text : List Char) (cut : Kind × Nat) : Kind × Nat :=
  (cut.1, (lengthening.write (text.take cut.2)).length)

/-! ### Written texts -/

section

variable {c d : Char} {text front : List Char}

theorem write_append (first second : List Char) :
    lengthening.write (first ++ second) = lengthening.write first ++ lengthening.write second :=
  List.flatMap_append

theorem write_cons (c : Char) (text : List Char) :
    lengthening.write (c :: text) = lengthening.run c ++ lengthening.write text :=
  List.flatMap_cons

theorem write_cons_short (short : ¬lengthening.IsLong c) (text : List Char) :
    lengthening.write (c :: text) = c :: lengthening.write text := by
  rw [write_cons, lengthening.run_short c short, List.singleton_append]

/-- A text without long characters stays as it is. -/
theorem write_eq_self (short : ∀ c ∈ text, ¬lengthening.IsLong c) :
    lengthening.write text = text := by
  induction text with
  | nil => rfl
  | cons c text inductionHypothesis =>
    obtain ⟨first, others⟩ := List.forall_mem_cons.1 short
    rw [write_cons_short first, inductionHypothesis others]

/-- A long character is written with at least one character, and with long ones only. -/
theorem exists_run (long : lengthening.IsLong c) :
    ∃ lead more, lengthening.run c = lead :: more ∧ ∀ d ∈ lead :: more, lengthening.IsLong d := by
  obtain ⟨nonempty, allLong⟩ := lengthening.run_long c long
  obtain ⟨lead, more, same⟩ := List.exists_cons_of_ne_nil nonempty
  exact ⟨lead, more, same, same ▸ allLong⟩

/-- A long character differs from every short one. -/
theorem ne_of_isLong (long : lengthening.IsLong c) (short : ¬lengthening.IsLong d) : c ≠ d := by
  rintro rfl
  exact short long

/-- The characters of names are short. -/
theorem not_isLong_of_isNamePart (part : isNamePart c) : ¬lengthening.IsLong c := by
  intro long
  cases (lengthening.isNamePart_eq c long).symm.trans part

/-- The characters of symbols are short. -/
theorem not_isLong_of_mem_text (mark : Symbol) (member : c ∈ mark.text) :
    ¬lengthening.IsLong c :=
  fun long => lengthening.notMem_text c long mark member

theorem isAlphanum_eq (long : lengthening.IsLong c) : c.isAlphanum = false :=
  (Bool.or_eq_false_iff.1 (lengthening.isNamePart_eq c long)).1

theorem isDigit_eq (long : lengthening.IsLong c) : c.isDigit = false :=
  (Bool.or_eq_false_iff.1 (isAlphanum_eq long)).2

/-- A test that all the characters pass, or none, goes as far in the text as it is written. -/
theorem takeWhile_write {test : Char → Bool}
    (uniform : ∀ c d, lengthening.IsLong c → lengthening.IsLong d → test c = test d)
    (text : List Char) :
    (lengthening.write text).takeWhile test = lengthening.write (text.takeWhile test) := by
  induction text with
  | nil => rfl
  | cons c text inductionHypothesis =>
    by_cases long : lengthening.IsLong c
    · obtain ⟨lead, more, same, allLong⟩ := exists_run long
      have alike : ∀ d ∈ lead :: more, test d = test c :=
        fun d member => uniform d c (allLong d member) long
      rw [write_cons]
      cases passes : test c with
      | true =>
        rw [List.takeWhile_append_of_pos, inductionHypothesis, List.takeWhile_cons, passes,
          if_pos rfl, ← write_cons]
        rw [same]
        exact fun d member => (alike d member).trans passes
      | false =>
        have stops : test lead = false := (alike lead List.mem_cons_self).trans passes
        rw [same, List.cons_append, List.takeWhile_cons, stops, List.takeWhile_cons, passes]
        rfl
    · rw [write_cons_short long, List.takeWhile_cons, List.takeWhile_cons]
      split
      · rw [inductionHypothesis, write_cons_short long]
      · rfl

/-- Other characters stand at the start of a text exactly if they do as it is written. -/
theorem prefix_write (short : ∀ c ∈ front, ¬lengthening.IsLong c) :
    front <+: lengthening.write text ↔ front <+: text := by
  induction front generalizing text with
  | nil => exact iff_of_true (List.nil_prefix ..) (List.nil_prefix ..)
  | cons d front inductionHypothesis =>
    obtain ⟨first, others⟩ := List.forall_mem_cons.1 short
    cases text with
    | nil => exact Iff.rfl
    | cons c text =>
      by_cases long : lengthening.IsLong c
      · obtain ⟨lead, more, same, allLong⟩ := exists_run long
        rw [write_cons, same, List.cons_append, List.cons_prefix_cons, List.cons_prefix_cons]
        exact iff_of_false
          (fun both => ne_of_isLong (allLong lead List.mem_cons_self) first both.1.symm)
          (fun both => ne_of_isLong long first both.1.symm)
      · rw [write_cons_short long, List.cons_prefix_cons, List.cons_prefix_cons,
          inductionHypothesis others]

theorem head?_write (short : ¬lengthening.IsLong d) :
    (lengthening.write text).head? = some d ↔ text.head? = some d := by
  have starts (text : List Char) : text.head? = some d ↔ [d] <+: text := by
    cases text with
    | nil => simp
    | cons c text => simp [eq_comm]
  rw [starts, starts, prefix_write (List.forall_mem_singleton.2 short)]

/-- A test that fails for long characters sees no difference in the first character. -/
theorem any_head?_write {test : Char → Bool} (stops : ∀ c, lengthening.IsLong c → test c = false) :
    (lengthening.write text).head?.any test = text.head?.any test := by
  cases text with
  | nil => rfl
  | cons c text =>
    by_cases long : lengthening.IsLong c
    · obtain ⟨lead, more, same, allLong⟩ := exists_run long
      rw [write_cons, same]
      exact (stops lead (allLong lead List.mem_cons_self)).trans (stops c long).symm
    · rw [write_cons_short long]
      rfl

end

/-! ### Long brackets -/

section

theorem not_isLong_bracket {mark : Char} (short : ¬lengthening.IsLong mark) (level : Nat) :
    ∀ c ∈ mark :: List.replicate level '=' ++ [mark], ¬lengthening.IsLong c := by
  have marks : ∀ c ∈ List.replicate level '=', ¬lengthening.IsLong c := by
    intro c member
    rw [List.eq_of_mem_replicate member]
    exact not_isLong_of_mem_text .equal (List.mem_singleton_self _)
  exact List.forall_mem_append.2
    ⟨List.forall_mem_cons.2 ⟨short, marks⟩, List.forall_mem_singleton.2 short⟩

theorem not_isLong_opening (lengthening : Lengthening) (level : Nat) :
    ∀ c ∈ LongBracket.opening level, ¬lengthening.IsLong c :=
  not_isLong_bracket (not_isLong_of_mem_text .leftSquare (List.mem_singleton_self _)) level

theorem not_isLong_closing (lengthening : Lengthening) (level : Nat) :
    ∀ c ∈ LongBracket.closing level, ¬lengthening.IsLong c :=
  not_isLong_bracket (not_isLong_of_mem_text .rightSquare (List.mem_singleton_self _)) level

/-- No closing bracket starts with a long character. -/
theorem not_startsClosing {c : Char} (long : lengthening.IsLong c) (level : Nat)
    (text : List Char) : ¬LongBracket.closing level <+: c :: text := by
  intro starts
  obtain ⟨rfl, -⟩ := List.cons_prefix_cons.1 starts
  exact not_isLong_closing lengthening level _ List.mem_cons_self long

/-- Lengthening keeps the level of a long bracket. -/
theorem level?_write (text : List Char) :
    LongBracket.level? (lengthening.write text) = LongBracket.level? text := by
  refine Option.ext fun level => ?_
  rw [LongBracket.level?_eq_some_iff, LongBracket.level?_eq_some_iff,
    prefix_write (not_isLong_opening lengthening level)]

/-- The way to a closing bracket is longer by the long characters in front. -/
theorem lengthToClose?_long {run : List Char} (long : ∀ c ∈ run, lengthening.IsLong c)
    (level : Nat) (text : List Char) :
    LongBracket.lengthToClose? level (run ++ text) =
      (LongBracket.lengthToClose? level text).map (· + run.length) := by
  induction run with
  | nil => exact (Option.map_id' ..).symm
  | cons c run inductionHypothesis =>
    obtain ⟨first, others⟩ := List.forall_mem_cons.1 long
    rw [List.cons_append, LongBracket.lengthToClose?, if_neg (not_startsClosing first level _),
      inductionHypothesis others, Option.map_map]
    rfl

/-- A long bracket is closed at the same place of the text as it is written. -/
theorem lengthToClose?_write (level : Nat) (text : List Char) :
    LongBracket.lengthToClose? level (lengthening.write text) =
      (LongBracket.lengthToClose? level text).map fun count =>
        (lengthening.write (text.take count)).length := by
  induction text with
  | nil => rfl
  | cons c text inductionHypothesis =>
    by_cases long : lengthening.IsLong c
    · rw [write_cons, lengthToClose?_long (lengthening.run_long c long).2, inductionHypothesis,
        LongBracket.lengthToClose?, if_neg (not_startsClosing long level text), Option.map_map,
        Option.map_map]
      refine congrArg (Option.map · _) (funext fun count => ?_)
      show _ = (lengthening.write (c :: text.take count)).length
      rw [write_cons, List.length_append]
      exact Nat.add_comm ..
    · have starts : LongBracket.closing level <+: c :: lengthening.write text ↔
          LongBracket.closing level <+: c :: text := by
        rw [← write_cons_short long, prefix_write (not_isLong_closing lengthening level)]
      rw [write_cons_short long, LongBracket.lengthToClose?, LongBracket.lengthToClose?]
      by_cases closed : LongBracket.closing level <+: c :: text
      · have taken : (c :: text).take (level + 2) = LongBracket.closing level := by
          rw [← LongBracket.length_closing level]
          exact (List.prefix_iff_eq_take.1 closed).symm
        rw [if_pos (starts.2 closed), if_pos closed, Option.map_some, taken,
          write_eq_self (not_isLong_closing lengthening level), LongBracket.length_closing]
      · rw [if_neg (fun other => closed (starts.1 other)), if_neg closed, inductionHypothesis,
          Option.map_map, Option.map_map]
        refine congrArg (Option.map · _) (funext fun count => ?_)
        show _ = (lengthening.write (c :: text.take count)).length
        rw [write_cons_short long]
        rfl

end

/-! ### The extent of each kind of token -/

section

variable {c : Char} {text front : List Char} {kind : Kind}

/-- What stands in front of a cut adds its own length, as lengthened. -/
theorem extent_append (lengthening : Lengthening) (front text : List Char) (cut : Kind × Nat) :
    lengthening.extent (front ++ text) (cut.map id (· + front.length)) =
      (lengthening.extent text cut).map id (· + (lengthening.write front).length) := by
  show (cut.1, (lengthening.write ((front ++ text).take (cut.2 + front.length))).length) =
    (cut.1, (lengthening.write (text.take cut.2)).length + (lengthening.write front).length)
  rw [Nat.add_comm cut.2, List.take_length_add_append, write_append, List.length_append,
    Nat.add_comm]

theorem extent_length :
    lengthening.extent text (kind, text.length) = (kind, (lengthening.write text).length) := by
  rw [extent, List.take_length]

/-- A token between long brackets ends at the same place of the text as it is written. What the
lexer has still to pass of the opening bracket stands in front. -/
theorem closing_write (short : ∀ c ∈ front, ¬lengthening.IsLong c) (level : Nat)
    (text : List Char) (closed unclosed : Kind) :
    (match LongBracket.lengthToClose? level
        ((lengthening.write (front ++ text)).drop front.length) with
      | some count => (closed, front.length + count)
      | none => (unclosed, (lengthening.write (front ++ text)).length)) =
    lengthening.extent (front ++ text)
      (match LongBracket.lengthToClose? level ((front ++ text).drop front.length) with
        | some count => (closed, front.length + count)
        | none => (unclosed, (front ++ text).length)) := by
  have written : lengthening.write (front ++ text) = front ++ lengthening.write text := by
    rw [write_append, write_eq_self short]
  rw [written, List.drop_left, List.drop_left, lengthToClose?_write]
  cases LongBracket.lengthToClose? level text with
  | none => exact written ▸ extent_length.symm
  | some count =>
    have counted := extent_append lengthening front text (closed, count)
    rw [write_eq_self short] at counted
    dsimp only [Option.map_some]
    rw [Nat.add_comm front.length, Nat.add_comm front.length]
    exact counted.symm

/-- A comment in lengthened text is the comment it was, lengthened. -/
theorem commentShape_write (text : List Char) :
    commentShape (lengthening.write text) = lengthening.extent text (commentShape text) := by
  rw [commentShape, level?_write, commentShape]
  cases opens : LongBracket.level? text with
  | none =>
    have uniform : ∀ c d, lengthening.IsLong c → lengthening.IsLong d →
        (!isLineBreak c) = !isLineBreak d :=
      fun c d first second => congrArg _ (lengthening.isLineBreak_eq c d first second)
    show (Kind.comment, ((lengthening.write text).takeWhile (!isLineBreak ·)).length) = _
    rw [takeWhile_write uniform, extent, take_takeWhile]
  | some level =>
    obtain ⟨rest, rfl⟩ := LongBracket.eq_opening_append_of_level? opens
    have closes := closing_write (not_isLong_opening lengthening level) level rest
      .comment .unterminatedComment
    rw [LongBracket.length_opening] at closes
    exact closes

/-- A long string in lengthened text is the string it was, lengthened. -/
theorem longStringShape_write {level : Nat}
    (opens : LongBracket.level? ('[' :: text) = some level) :
    longStringShape level (lengthening.write text) =
      lengthening.extent text (longStringShape level text) := by
  obtain ⟨front, rest, form, length, rfl⟩ := LongBracket.exists_opening_tail opens
  have short := not_isLong_opening lengthening level
  rw [form] at short
  have closes := closing_write (List.forall_mem_cons.1 short).2 level rest
    .longString .unterminatedString
  rw [length] at closes
  exact closes

/-- A number ends in front of the characters that are replaced. -/
theorem numberLength_write (isHexadecimal : Bool) (previous : Char) (text : List Char) :
    numberLength isHexadecimal previous (lengthening.write text) =
      (lengthening.write (text.take (numberLength isHexadecimal previous text))).length := by
  induction text generalizing previous with
  | nil => rfl
  | cons c text inductionHypothesis =>
    by_cases long : lengthening.IsLong c
    · have stops {d : Char} (long : lengthening.IsLong d) (rest : List Char) :
          numberLength isHexadecimal previous (d :: rest) = 0 := by
        have noMark (mark : Symbol) (e : Char) (member : e ∈ mark.text) : (d == e) = false :=
          beq_eq_false_iff_ne.2 (ne_of_isLong long (not_isLong_of_mem_text mark member))
        have point := noMark .dot '.' (List.mem_singleton_self _)
        have plus := noMark .plus '+' (List.mem_singleton_self _)
        have minus := noMark .minus '-' (List.mem_singleton_self _)
        have underscore := (Bool.or_eq_false_iff.1 (lengthening.isNamePart_eq d long)).2
        simp [numberLength, isAlphanum_eq long, point, underscore, plus, minus]
      obtain ⟨lead, more, same, allLong⟩ := exists_run long
      rw [write_cons, same, List.cons_append, stops (allLong lead List.mem_cons_self), stops long]
      rfl
    · rw [write_cons_short long, numberLength, numberLength]
      split
      · rw [inductionHypothesis, List.take_succ_cons, write_cons_short long, List.length_cons]
      · rfl

theorem startsHexadecimal_write (text : List Char) :
    startsHexadecimal (lengthening.write text) = startsHexadecimal text := by
  have starts (text : List Char) :
      startsHexadecimal text = true ↔ ['0', 'x'] <+: text ∨ ['0', 'X'] <+: text := by
    unfold startsHexadecimal
    split
    · simp
    · simp
    next noLower noUpper =>
      refine iff_of_false nofun ?_
      rintro (⟨rest, rfl⟩ | ⟨rest, rfl⟩)
      · exact noLower rest rfl
      · exact noUpper rest rfl
  have allShort {letter : Char} (part : isNamePart letter) :
      ∀ c ∈ ['0', letter], ¬lengthening.IsLong c :=
    List.forall_mem_cons.2 ⟨not_isLong_of_isNamePart rfl,
      List.forall_mem_singleton.2 (not_isLong_of_isNamePart part)⟩
  rw [Bool.eq_iff_iff, starts, starts, prefix_write (allShort rfl), prefix_write (allShort rfl)]

/-- Lengthening keeps the symbol a text starts with. -/
theorem first?_write (text : List Char) :
    Symbol.first? (lengthening.write text) = Symbol.first? text := by
  refine congrArg (Symbol.all.find? ·) (funext fun mark => ?_)
  rw [Bool.eq_iff_iff, List.isPrefixOf_iff_prefix, List.isPrefixOf_iff_prefix,
    prefix_write fun c member => not_isLong_of_mem_text mark member]

/-! ### Any token -/

/-- A symbol is as long as it was. -/
theorem extent_symbol {mark : Symbol} (found : Symbol.first? (c :: text) = some mark) :
    lengthening.extent text (.symbol mark, mark.text.length - 1) =
      (.symbol mark, mark.text.length - 1) := by
  obtain ⟨more, same⟩ := Symbol.isPrefix_of_first? found
  obtain ⟨first, others, form⟩ := mark.text_eq_cons
  have allShort : ∀ d ∈ mark.text, ¬lengthening.IsLong d :=
    fun d member => not_isLong_of_mem_text mark member
  rw [form] at same allShort
  obtain ⟨rfl, rfl⟩ := List.cons.inj same
  rw [extent, form, List.length_cons, Nat.add_sub_cancel]
  show (_, (lengthening.write ((others ++ more).take others.length)).length) = _
  rw [List.take_left, write_eq_self (List.forall_mem_cons.1 allShort).2]

/-- What starts with another character is cut off at the same place of the text as it is written, if
this is so of strings between quotes. -/
theorem shape_write (short : ¬lengthening.IsLong c)
    (quoted : c = '\x22' ∨ c = '\x27' →
      quotedShape c (lengthening.write text) = lengthening.extent text (quotedShape c text)) :
    shape c (lengthening.write text) = lengthening.extent text (shape c text) := by
  have dashShort : ¬lengthening.IsLong '-' :=
    not_isLong_of_mem_text .minus (List.mem_singleton_self _)
  have written := write_cons_short short text
  have dash : (lengthening.write text).head? = some '-' ↔ text.head? = some '-' :=
    head?_write dashShort
  have digit : startsNumber c (lengthening.write text) = startsNumber c text := by
    rw [startsNumber, startsNumber, any_head?_write fun d long => isDigit_eq long]
  have hexadecimal : startsHexadecimal (c :: lengthening.write text) =
      startsHexadecimal (c :: text) := by
    rw [← written, startsHexadecimal_write]
  have opens : LongBracket.level? (c :: lengthening.write text) =
      LongBracket.level? (c :: text) := by
    rw [← written, level?_write]
  have marked : Symbol.first? (c :: lengthening.write text) = Symbol.first? (c :: text) := by
    rw [← written, first?_write]
  simp only [shape, dash, digit, hexadecimal, opens, marked]
  split
  next dashes =>
    obtain ⟨rfl, second⟩ := dashes
    obtain ⟨rest, rfl⟩ := List.head?_eq_some_iff.1 second
    have counted := extent_append lengthening ['-'] rest (commentShape rest)
    rw [write_eq_self (List.forall_mem_singleton.2 dashShort)] at counted
    rw [write_cons_short short, List.drop_one, List.drop_one, List.tail_cons, List.tail_cons,
      commentShape_write]
    exact counted.symm
  split
  next isQuote => exact quoted isQuote
  split
  next => rw [numberLength_write, extent]
  split
  next =>
    have uniform : ∀ c d, lengthening.IsLong c → lengthening.IsLong d →
        isNamePart c = isNamePart d :=
      fun c d first second =>
        (lengthening.isNamePart_eq c first).trans (lengthening.isNamePart_eq d second).symm
    have parts : ∀ d ∈ text.takeWhile isNamePart, ¬lengthening.IsLong d := fun d member =>
      not_isLong_of_isNamePart (List.all_eq_true.1 List.all_takeWhile d member)
    rw [extent, take_takeWhile, take_takeWhile, takeWhile_write uniform, write_eq_self parts]
  split
  next level found =>
    obtain rfl := LongBracket.eq_bracket_of_level? found
    exact longStringShape_write found
  split
  next mark found => exact (extent_symbol found).symm
  · rfl

end

end Lengthening

end LuaStyle
