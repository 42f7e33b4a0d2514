/-
This file proves that numbers are read by one grammar throughout.

The reader of numerals, the lexer and the parser each look at the text of a number in their own way.
The numerals are exactly what the reader answers to; each of them is one token to the lexer, if
nothing follows that could go on it, and a literal to the parser; and a token that the lexer takes
for a number, but whose text is no numeral, is in no program.
-/

import LuaStyle.Proofs.Accounting
import LuaStyle.Proofs.Completeness

namespace LuaStyle

/-- A number token whose text has a value is read as a literal. -/
theorem Grammar.operand_number {text : List Char} {value : Double}
    (named : Numeral.valueOf? text = some value) (offset lastStop sourceLength : Nat)
    (others : List Token) :
    Returns (operand ⟨⟨.number, text, offset⟩ :: others, lastStop, sourceLength⟩)
      (.literal ⟨.number value, text, ⟨offset, offset + byteLength text⟩⟩)
      ⟨others, offset + byteLength text, sourceLength⟩ := by
  have read : numberLiteral ⟨.number, text, offset⟩ =
      .ok ⟨.number value, text, ⟨offset, offset + byteLength text⟩⟩ := by
    rw [numberLiteral, named]
    rfl
  refine ⟨Nat.lt_succ_self _, ?_⟩
  rw [operand]
  show (do
    let literal ← numberLiteral ⟨.number, text, offset⟩
    return (⟨.literal literal, _, _⟩ : Parsed _ Expression)) = _
  rw [read]
  rfl

/-! ### Numerals in programs -/

theorem Token.ofText_return {text : List Char} (numeral : Numeral.IsNumeral text) :
    ofText ("return ".toList ++ text) =
      [⟨.keyword .returnWord, "return".toList, 0⟩, ⟨.number, text, 7⟩] := by
  have word : shape 'r' ("eturn".toList ++ ' ' :: text) = (.keyword .returnWord, 5) :=
    shape_word rfl (List.all_eq_true.1 rfl) fun c next => by
      cases next
      rfl
  have first : tokensFrom 0 ('r' :: ("eturn".toList ++ ' ' :: text)) =
      ⟨.keyword .returnWord, "return".toList, 0⟩ :: tokensFrom 6 (' ' :: text) :=
    tokensFrom_of_shape rfl word 0
  have second : tokensFrom 7 (text ++ []) = ⟨.number, text, 7⟩ :: tokensFrom _ [] :=
    tokensFrom_numeral numeral (fun _ next => by cases next) 7
  rw [List.append_nil, tokensFrom_nil] at second
  refine first.trans (congrArg (List.cons _) ?_)
  rw [tokensFrom_space rfl]
  exact second

/-- A program that returns a numeral returns the literal. -/
theorem Program.parse_return {text : List Char} {value : Double}
    (named : Numeral.valueOf? text = some value) :
    parse ("return ".toList ++ text) = .ok
      ⟨⟨[.returnValues [.literal ⟨.number value, text, ⟨7, 7 + byteLength text⟩⟩]
        ⟨0, 7 + byteLength text⟩], ⟨0, 7 + byteLength text⟩⟩, []⟩ := by
  have numeral := Numeral.isSome_valueOf?_iff.1 (Option.isSome_of_eq_some named)
  have tokens := Token.ofText_return numeral
  have constant : Literal.Reads ⟨.number value, text, ⟨7, 7 + byteLength text⟩⟩
      ⟨.number, text, 7⟩ := by
    refine .number rfl ?_
    rw [Grammar.numberLiteral, named]
    rfl
  have statement : Statement.Reads true
      (.returnValues [.literal ⟨.number value, text, ⟨7, 7 + byteLength text⟩⟩]
        ⟨0, 7 + byteLength text⟩)
      (⟨.keyword .returnWord, "return".toList, 0⟩ :: [⟨.number, text, 7⟩] ++ []) :=
    @Statement.Reads.returnValues true _ ⟨.keyword .returnWord, "return".toList, 0⟩ _ [] rfl
      (.some (.single (.literal constant))) (.inl rfl)
  have reads : Statement.ReadsBody true
      [.returnValues [.literal ⟨.number value, text, ⟨7, 7 + byteLength text⟩⟩]
        ⟨0, 7 + byteLength text⟩]
      ((Token.ofText ("return ".toList ++ text)).filter (·.kind != .comment)) := by
    rw [tokens]
    exact .cons statement (fun _ => rfl) (fun _ => rfl) .nil
  have length : byteLength ("return ".toList ++ text) = 7 + byteLength text :=
    byteLength_append ..
  rw [parse_eq_of_readsBody reads, commentsOf, tokens, length]
  · rfl
  · refine List.forall_mem_cons.2 ⟨⟨trivial, rfl⟩, List.forall_mem_cons.2 ⟨⟨trivial, rfl⟩, ?_⟩⟩
    exact List.forall_mem_nil _

/-- Whether a text is a number is told by one grammar: exactly the numerals have a value; where
nothing follows that could go on it, a numeral is one token, which is read as the literal, and a
program may return it; and no program has a number in it whose text is not a numeral. -/
theorem numbers_are_numerals :
    (∀ text, (Numeral.valueOf? text).isSome ↔ Numeral.IsNumeral text) ∧
      (∀ text, Numeral.IsNumeral text → ∃ value, Numeral.valueOf? text = some value ∧
        (∀ rest, (∀ c ∈ rest.head?, c.isAlphanum = false ∧ c ≠ '_' ∧ c ≠ '.') → ∀ offset,
          Token.tokensFrom offset (text ++ rest) =
            ⟨.number, text, offset⟩ :: Token.tokensFrom (offset + byteLength text) rest) ∧
        (∀ offset others lastStop sourceLength,
          Grammar.Returns
            (Grammar.operand ⟨⟨.number, text, offset⟩ :: others, lastStop, sourceLength⟩)
            (.literal ⟨.number value, text, ⟨offset, offset + byteLength text⟩⟩)
            ⟨others, offset + byteLength text, sourceLength⟩) ∧
        Program.parse ("return ".toList ++ text) = .ok
          ⟨⟨[.returnValues [.literal ⟨.number value, text, ⟨7, 7 + byteLength text⟩⟩]
            ⟨0, 7 + byteLength text⟩], ⟨0, 7 + byteLength text⟩⟩, []⟩) ∧
      ∀ source, ∀ token ∈ Token.ofText source, token.kind = .number →
        ¬Numeral.IsNumeral token.text → ∃ error, Program.parse source = .error error := by
  refine ⟨fun text => Numeral.isSome_valueOf?_iff, fun text numeral => ?_,
    fun source token member kind noNumeral => ?_⟩
  · obtain ⟨value, named⟩ := Option.isSome_iff_exists.1 (Numeral.isSome_valueOf?_iff.2 numeral)
    exact ⟨value, named, fun rest ends => Token.tokensFrom_numeral numeral ends,
      fun offset others lastStop sourceLength =>
        Grammar.operand_number named offset lastStop sourceLength others,
      Program.parse_return named⟩
  · cases parsed : Program.parse source with
    | error error => exact ⟨error, rfl⟩
    | ok program =>
      obtain ⟨constant, found⟩ := Program.exists_numberLiteral parsed token member kind
      have named : (Numeral.valueOf? token.text).isSome := by
        unfold Grammar.numberLiteral at found
        split at found
        next same => exact Option.isSome_of_eq_some same
        · cases found
      exact absurd (Numeral.isSome_valueOf?_iff.1 named) noNumeral

theorem numbers_are_numerals_of_signs :
    Token.tokensFrom 0 (".5e-3".toList ++ "+1".toList) =
        ⟨.number, ".5e-3".toList, 0⟩ :: Token.tokensFrom 5 "+1".toList ∧
      ∃ error, Program.parse "x = 1e+".toList = .error error := by
  obtain ⟨same, numerals, others⟩ := numbers_are_numerals
  obtain ⟨-, -, cut, -⟩ := numerals ".5e-3".toList ((same _).1 (by decide +kernel))
  refine ⟨cut "+1".toList ?_ 0, others _ ⟨.number, "1e+".toList, 4⟩ ?_ rfl fun numeral => ?_⟩
  · rintro _ ⟨⟩
    decide
  · decide +kernel
  · exact absurd ((same _).2 numeral) (by decide +kernel)

end LuaStyle
