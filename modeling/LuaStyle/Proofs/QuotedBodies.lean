/-
This file describes what the lexer passes over between two quotes.

A body is made of characters that stand for themselves and of backslashes with what they take along.
The lexer cuts off a string exactly behind a body and a closing quote. So whatever is to be shown of
the strings that are cut off, such as that they do not depend on the text behind them, goes by
induction along the body and needs no look at the lexer.
-/

import LuaStyle.Proofs.QuotedText

namespace LuaStyle.Quoted

/-- What the lexer passes over between the quotes: characters that stand for themselves, and
backslashes with the character behind them, or with both characters of a line break. The quote is
escaped wherever it stands in there. -/
inductive IsBody (quote : Char) : List Char → Prop
  | nil : IsBody quote []
  | plain {c rest} : IsPlain quote c → IsBody quote rest → IsBody quote (c :: rest)
  | escape {c rest} : IsBody quote rest → IsBody quote ('\\' :: c :: rest)
  | returnFeed {rest} : IsBody quote rest → IsBody quote ('\\' :: '\r' :: '\n' :: rest)

variable {quote c : Char} {text content front rest : List Char} {count : Nat}

/-- A character that the lexer passes over by itself stands for itself. A backslash would take what
follows along. -/
theorem IsPlain.of_passed (atEnd : c = '\\' → rest = [] → False)
    (noEscape : ∀ d more, c = '\\' → rest = d :: more → False) (inLine : ¬Token.isLineBreak c)
    (other : c ≠ quote) : IsPlain quote c where
  noBackslash isBackslash := by
    cases rest with
    | nil => exact atEnd isBackslash rfl
    | cons d more => exact noEscape d more isBackslash rfl
  noQuote := other
  noLineBreak := Bool.eq_false_iff.2 inLine

/-- Where the lexer passes over some characters, it takes as many more. -/
theorem taken_further {cut : Token.Kind × Nat} {width : Nat}
    (closes : cut.map id (· + width) = (.quotedString, count)) :
    ∃ further, cut = (.quotedString, further) ∧ count = further + width := by
  obtain ⟨kind, further⟩ := cut
  cases closes
  exact ⟨further, rfl, rfl⟩

/-- A string that the lexer cuts off consists of a body and the closing quote. -/
theorem exists_body (closes : Token.quotedShape quote text = (.quotedString, count)) :
    ∃ content after, text = content ++ quote :: after ∧ count = content.length + 1 ∧
      IsBody quote content := by
  fun_induction Token.quotedShape quote text generalizing count with
  | case1 => cases closes
  | case2 rest inductionHypothesis =>
    obtain ⟨further, cut, rfl⟩ := taken_further closes
    obtain ⟨content, after, rfl, rfl, isBody⟩ := inductionHypothesis cut
    exact ⟨'\\' :: '\r' :: '\n' :: content, after, rfl, rfl, .returnFeed isBody⟩
  | case3 c rest _ inductionHypothesis =>
    obtain ⟨further, cut, rfl⟩ := taken_further closes
    obtain ⟨content, after, rfl, rfl, isBody⟩ := inductionHypothesis cut
    exact ⟨'\\' :: c :: content, after, rfl, rfl, .escape isBody⟩
  | case4 => cases closes
  | case5 => cases closes
  | case6 rest =>
    cases closes
    exact ⟨[], rest, rfl, rfl, .nil⟩
  | case7 c rest _ noEscape atEnd inLine other inductionHypothesis =>
    have plain : IsPlain quote c := .of_passed atEnd noEscape inLine other
    obtain ⟨further, cut, rfl⟩ := taken_further closes
    obtain ⟨content, after, rfl, rfl, isBody⟩ := inductionHypothesis cut
    exact ⟨c :: content, after, rfl, rfl, .plain plain isBody⟩

/-- Behind a body, the lexer ends the string at the closing quote. -/
theorem IsBody.shape_closed (isBody : IsBody quote content)
    (isQuote : quote = '\x22' ∨ quote = '\x27') (after : List Char) :
    Token.quotedShape quote (content ++ quote :: after) = (.quotedString, content.length + 1) := by
  induction isBody with
  | nil => rcases isQuote with rfl | rfl <;> rfl
  | plain plain isBody inductionHypothesis =>
    rw [List.cons_append, shape_plain plain, inductionHypothesis]
    rfl
  | @escape c rest isBody inductionHypothesis =>
    rw [List.cons_append, List.cons_append, Token.quotedShape, inductionHypothesis]
    · rfl
    -- what stands behind a carriage return is the rest of a body, or the quote
    · rintro more - same
      cases isBody with
      | nil => rcases isQuote with rfl | rfl <;> cases same
      | plain plain _ =>
        cases same
        cases plain.noLineBreak
      | escape _ => cases same
      | returnFeed _ => cases same
  | returnFeed isBody inductionHypothesis =>
    rw [List.cons_append, List.cons_append, List.cons_append, Token.quotedShape,
      inductionHypothesis]
    rfl

/-- Plain characters can be taken off the front of a body. -/
theorem IsBody.of_append (isBody : IsBody quote (front ++ rest)) (passed : '\\' ∉ front) :
    IsBody quote rest := by
  induction front with
  | nil => exact isBody
  | cons c front inductionHypothesis =>
    rw [List.mem_cons, not_or] at passed
    refine inductionHypothesis ?_ passed.2
    rw [List.cons_append] at isBody
    generalize front ++ rest = behind at isBody ⊢
    cases isBody with
    | plain _ isBody => exact isBody
    | escape _ => exact absurd rfl passed.1
    | returnFeed _ => exact absurd rfl passed.1

end LuaStyle.Quoted
