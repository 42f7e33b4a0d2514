/-
This file proves that the lexer finds the end of a string by what is in it.

What is cut off as a string, between quotes or between long brackets, is cut off again when
something else stands behind it. So the text of such a token can be written down anywhere. Other
tokens end where something follows that cannot go on with them; a string ends at its own last
character.
-/

import LuaStyle.Proofs.LineEndings
import LuaStyle.Proofs.Tiling

namespace LuaStyle

/-! ### Strings between long brackets -/

namespace LongBracket

/-- What is cut off behind an opening bracket is cut off with anything else behind it. -/
theorem lengthToClose?_take {level count : Nat} {text : List Char}
    (closes : lengthToClose? level text = some count) (tail : List Char) :
    count ≤ text.length ∧ lengthToClose? level (text.take count ++ tail) = some count := by
  obtain ⟨inside, after, rfl, rfl, free⟩ := exists_closed closes
  constructor
  · rw [List.length_append, List.length_append, length_closing]
    exact Nat.add_le_add_left (Nat.le_add_right ..) _
  · rw [take_closed, List.append_assoc]
    exact lengthToClose?_append tail free

end LongBracket

namespace Token

/-- What is cut off behind a quote is cut off with anything else behind it. -/
theorem quotedShape_take {quote : Char} {text : List Char} {count : Nat}
    (isQuote : quote = '\x22' ∨ quote = '\x27')
    (closes : quotedShape quote text = (.quotedString, count)) (tail : List Char) :
    count ≤ text.length ∧ quotedShape quote (text.take count ++ tail) = (.quotedString, count) := by
  obtain ⟨content, after, rfl, rfl, isBody⟩ := Quoted.exists_body closes
  constructor
  · rw [List.length_append]
    exact Nat.add_le_add_left (Nat.succ_le_succ (Nat.zero_le _)) _
  · rw [List.take_length_add_append, List.append_assoc]
    exact isBody.shape_closed isQuote tail

/-- What is cut off behind the first character of a long string is cut off with anything else behind
it. -/
theorem longStringShape_take {level count : Nat} {text : List Char}
    (closes : longStringShape level text = (.longString, count))
    (opens : LongBracket.level? ('[' :: text) = some level) (tail : List Char) :
    count ≤ text.length ∧ longStringShape level (text.take count ++ tail) = (.longString, count) ∧
      LongBracket.level? ('[' :: (text.take count ++ tail)) = some level := by
  obtain ⟨front, behind, form, length, rfl⟩ := LongBracket.exists_opening_tail opens
  rw [longStringShape, ← length, List.drop_left] at closes
  split at closes
  next inner found =>
    cases closes
    obtain ⟨within, again⟩ := LongBracket.lengthToClose?_take found tail
    rw [List.take_length_add_append, List.append_assoc]
    refine ⟨?_, ?_, ?_⟩
    · rw [List.length_append]
      exact Nat.add_le_add_left within _
    · rw [longStringShape, ← length, List.drop_left, again]
    · rw [← List.cons_append, ← form]
      exact LongBracket.level?_opening_append level _
  · cases closes

/-- A long bracket opens a long string. -/
theorem shape_bracket {level : Nat} {text : List Char}
    (opens : LongBracket.level? ('[' :: text) = some level) :
    shape '[' text = longStringShape level text := by
  have noNumber : startsNumber '[' text = false := rfl
  rw [shape, if_neg (fun both => absurd both.1 (by decide)), if_neg (by decide), noNumber,
    if_neg Bool.false_ne_true, if_neg (by decide), opens]

/-- Tokens of the kind are strings. -/
def Kind.isString : Kind → Bool
  | .quotedString | .longString => true
  | _ => false

theorem isString_commentShape (text : List Char) :
    ((commentShape text).map id (· + 1)).1.isString = false := by
  unfold commentShape
  split
  · split <;> rfl
  · rfl

theorem isString_wordKind (word : List Char) : (wordKind word).isString = false := by
  unfold wordKind
  split <;> rfl

/-- A string is cut off behind a quote, or behind a long bracket. -/
theorem shape_of_isString {c : Char} {text : List Char} (isString : (shape c text).1.isString) :
    ((c = '\x22' ∨ c = '\x27') ∧ shape c text = quotedShape c text) ∨
      ∃ level, c = '[' ∧ LongBracket.level? (c :: text) = some level ∧
        shape c text = longStringShape level text := by
  unfold shape at isString
  split at isString
  · cases isString.symm.trans (isString_commentShape _)
  split at isString
  next isQuote => exact .inl ⟨isQuote, shape_quote isQuote text⟩
  split at isString
  · cases isString
  split at isString
  · cases isString.symm.trans (isString_wordKind _)
  split at isString
  next level opens =>
    obtain rfl := LongBracket.eq_bracket_of_level? opens
    exact .inr ⟨level, rfl, opens, shape_bracket opens⟩
  split at isString <;> cases isString

/-- What is cut off as a string is cut off with anything else behind it. -/
theorem shape_take {c : Char} {text : List Char} {kind : Kind} {count : Nat}
    (isString : kind.isString) (shaped : shape c text = (kind, count)) (tail : List Char) :
    count ≤ text.length ∧ shape c (text.take count ++ tail) = (kind, count) := by
  have string : (shape c text).1.isString := by rwa [shaped]
  rcases shape_of_isString string with ⟨isQuote, same⟩ | ⟨level, rfl, opens, same⟩
  · rw [same] at shaped
    rw [shape_quote isQuote]
    rcases quotedShape_kind c text with closed | stuck
    · obtain rfl : Kind.quotedString = kind := closed.symm.trans (congrArg Prod.fst shaped)
      exact quotedShape_take isQuote shaped tail
    · cases string.symm.trans (congrArg Kind.isString ((congrArg Prod.fst same).trans stuck))
  · rw [same] at shaped
    rcases longStringShape_kind level text with closed | stuck
    · obtain rfl : Kind.longString = kind := closed.symm.trans (congrArg Prod.fst shaped)
      obtain ⟨within, again, opensAgain⟩ := longStringShape_take shaped opens tail
      rw [shape_bracket opensAgain]
      exact ⟨within, again⟩
    · cases string.symm.trans (congrArg Kind.isString ((congrArg Prod.fst same).trans stuck))

theorem cuts_string {c : Char} {text rest : List Char} (solid : isSpace c = false)
    (isString : (shape c text).1.isString) :
    Cuts (c :: text.take (shape c text).2) rest fun tokens => ∃ token, tokens = [token] ∧
      token.kind = (shape c text).1 ∧ token.text = c :: text.take (shape c text).2 := by
  cases shaped : shape c text with
  | mk kind count =>
    rw [shaped] at isString
    obtain ⟨within, again⟩ := shape_take isString shaped rest
    refine .of_shape solid ?_
    rw [again, List.length_take, Nat.min_eq_left within]

end Token

end LuaStyle
