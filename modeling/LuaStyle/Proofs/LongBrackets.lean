/-
This file proves that a text between long brackets is read back as it is.

The level of the brackets is the lowest whose closing bracket is not in the text with one more `]`
behind. This one character stands for the closing bracket that will follow: a bracket of the same
level that starts in the text and ends in the bracket behind it could only end with the first
character of that one. So the first closing bracket the lexer finds is the one that was written, and
behind two dashes as well as alone, what is enclosed is one token. A comment keeps the text in it. A
long string is read without a line break at its start, and with each other line break read as a line
feed.
-/

import LuaStyle.Proofs.CommentText
import LuaStyle.Proofs.StringEnds

namespace LuaStyle

namespace LongBracket

/-! ### The level -/

/-- The level is the lowest whose closing bracket does not come too early. -/
theorem infix_of_lt_lowestLevel {text : List Char} {level : Nat}
    (lower : level < lowestLevel text) : closing level <:+: text ++ [']'] := by
  obtain ⟨-, -, early⟩ := List.find?_range_eq_some.1 (find?_lowestLevel text)
  have closes := early level lower
  rw [Bool.not_not] at closes
  by_contra free
  cases closes.symm.trans (closesEarly_eq_false_iff.2 free)

theorem enclose_eq (text : List Char) :
    enclose text = opening (lowestLevel text) ++ (text ++ closing (lowestLevel text)) :=
  List.append_assoc ..

/-- The opening bracket is found where a text is enclosed. -/
theorem level?_enclose (text rest : List Char) :
    level? (enclose text ++ rest) = some (lowestLevel text) := by
  rw [enclose_eq, List.append_assoc]
  exact level?_opening_append ..

theorem inside_enclose (text : List Char) : inside (lowestLevel text) (enclose text) = text := by
  rw [enclose_eq]
  exact Comment.inside_append ..

/-! ### Tokens -/

/-- Behind two dashes, an enclosed text is one comment, whatever follows it. -/
theorem tokensFrom_comment (text rest : List Char) (offset : Nat) :
    Token.tokensFrom offset ('-' :: '-' :: enclose text ++ rest) =
      ⟨.comment, '-' :: '-' :: enclose text, offset⟩ ::
        Token.tokensFrom (offset + byteLength ('-' :: '-' :: enclose text)) rest := by
  rw [enclose_eq]
  exact Token.tokensFrom_of_shape rfl (Comment.shape_block (not_infix_lowestLevel text) rest) offset

/-- The comment has the text that was enclosed. -/
theorem ofToken_comment (text : List Char) (offset : Nat) :
    Comment.ofToken ⟨.comment, '-' :: '-' :: enclose text, offset⟩ =
      ⟨text, '-' :: '-' :: enclose text, .block,
        ⟨offset, offset + byteLength ('-' :: '-' :: enclose text)⟩⟩ := by
  have opens := level?_enclose text []
  rw [List.append_nil] at opens
  have content : ('-' :: '-' :: enclose text).drop 2 = enclose text := rfl
  unfold Comment.ofToken
  dsimp only
  rw [content, opens]
  dsimp only
  rw [inside_enclose]
  rfl

/-- By itself, an enclosed text is one long string. -/
theorem ofText_enclose (text : List Char) :
    Token.ofText (enclose text) = [⟨.longString, enclose text, 0⟩] := by
  obtain ⟨front, form⟩ : ∃ front, opening (lowestLevel text) = '[' :: front := ⟨_, rfl⟩
  have length := length_opening (lowestLevel text)
  rw [form, List.length_cons] at length
  have same : enclose text = '[' :: (front ++ (text ++ closing (lowestLevel text))) := by
    rw [enclose_eq, form]
    rfl
  have opens := level?_enclose text []
  rw [List.append_nil, same] at opens
  have closes := lengthToClose?_append [] (not_infix_lowestLevel text)
  rw [List.append_nil] at closes
  have shaped : Token.shape '[' (front ++ (text ++ closing (lowestLevel text)) ++ []) =
      (.longString, (front ++ (text ++ closing (lowestLevel text))).length) := by
    rw [List.append_nil, Token.shape_bracket opens, Token.longStringShape,
      List.drop_left' (Nat.succ.inj length), closes]
    dsimp only
    rw [List.length_append, List.length_append, length_closing, Nat.succ.inj length]
  have tokens := Token.tokensFrom_of_shape rfl shaped 0
  rw [List.append_nil, Token.tokensFrom_nil] at tokens
  rw [Token.ofText, same]
  exact tokens

/-! ### Line breaks -/

/-- The text starts with a line break, behind which the rest stands. Two different characters of a
line break that stand together are one. -/
inductive StartsWithBreak : List Char → List Char → Prop
  | double {first second rest} : Token.isLineBreak first → Token.isLineBreak second →
    first ≠ second → StartsWithBreak (first :: second :: rest) rest
  | single {c rest} : Token.isLineBreak c → (∀ d ∈ rest.head?, Token.isLineBreak d → d = c) →
    StartsWithBreak (c :: rest) rest

/-- The text has the value, which has a line feed for each line break of the text. -/
inductive ReadsAs : List Char → List Char → Prop
  | nil : ReadsAs [] []
  | keep {c rest value} : Token.isLineBreak c = false → ReadsAs rest value →
    ReadsAs (c :: rest) (c :: value)
  | lineBreak {text rest value} : StartsWithBreak text rest → ReadsAs rest value →
    ReadsAs text ('\n' :: value)

/-- The text has the value if a line break at its start does not count. -/
inductive HasValue (text value : List Char) : Prop
  | dropped {rest} : StartsWithBreak text rest → ReadsAs rest value → HasValue text value
  | kept : (∀ c ∈ text.head?, Token.isLineBreak c = false) → ReadsAs text value →
    HasValue text value

/-- A line break character that does not stand before the other one is a line break by itself. -/
theorem startsWithBreak_single {c other : Char} {rest : List Char} (isBreak : Token.isLineBreak c)
    (only : ∀ d, Token.isLineBreak d → d = c ∨ d = other)
    (alone : ∀ more, rest = other :: more → False) : StartsWithBreak (c :: rest) rest := by
  refine .single isBreak fun d first isBreak => (only d isBreak).resolve_right ?_
  rintro rfl
  obtain ⟨more, same⟩ := List.head?_eq_some_iff.1 first
  exact alone more same

theorem eq_or_eq_of_isLineBreak {c : Char} (isBreak : Token.isLineBreak c) :
    c = '\n' ∨ c = '\r' := by
  rwa [Token.isLineBreak, Bool.or_eq_true, beq_iff_eq, beq_iff_eq] at isBreak

theorem startsWithBreak_lineFeed {rest : List Char} (alone : ∀ more, rest = '\r' :: more → False) :
    StartsWithBreak ('\n' :: rest) rest :=
  startsWithBreak_single rfl (fun _ => eq_or_eq_of_isLineBreak) alone

theorem startsWithBreak_return {rest : List Char} (alone : ∀ more, rest = '\n' :: more → False) :
    StartsWithBreak ('\r' :: rest) rest :=
  startsWithBreak_single rfl (fun _ isBreak => (eq_or_eq_of_isLineBreak isBreak).symm) alone

theorem readsAs_readLineBreaks (text : List Char) : ReadsAs text (readLineBreaks text) := by
  fun_induction readLineBreaks text with
  | case1 rest inductionHypothesis =>
    exact .lineBreak (.double rfl rfl (by decide)) inductionHypothesis
  | case2 rest inductionHypothesis =>
    exact .lineBreak (.double rfl rfl (by decide)) inductionHypothesis
  | case3 rest alone inductionHypothesis =>
    exact .lineBreak (startsWithBreak_return alone) inductionHypothesis
  | case4 c rest noReturnFeed noFeedReturn noReturn inductionHypothesis =>
    by_cases feed : c = '\n'
    · subst feed
      exact .lineBreak (startsWithBreak_lineFeed fun more => noFeedReturn more rfl)
        inductionHypothesis
    · exact .keep (isLineBreak_of_ne noReturn feed) inductionHypothesis
  | case5 => exact .nil

theorem hasValue_readLineBreaks (text : List Char) :
    HasValue text (readLineBreaks (dropLineBreak text)) := by
  fun_cases dropLineBreak text with
  | case1 rest => exact .dropped (.double rfl rfl (by decide)) (readsAs_readLineBreaks rest)
  | case2 rest => exact .dropped (.double rfl rfl (by decide)) (readsAs_readLineBreaks rest)
  | case3 rest alone =>
    exact .dropped (startsWithBreak_lineFeed alone) (readsAs_readLineBreaks rest)
  | case4 rest alone =>
    exact .dropped (startsWithBreak_return alone) (readsAs_readLineBreaks rest)
  | case5 text _ _ noFeed noReturn =>
    refine .kept (fun c first => ?_) (readsAs_readLineBreaks text)
    cases text with
    | nil => cases first
    | cons d rest =>
      cases first
      exact isLineBreak_of_ne (fun same => noReturn rest (same ▸ rfl))
        (fun same => noFeed rest (same ▸ rfl))

/-! ### Reading back -/

/-- The value of a long string is that of the text that was enclosed. -/
theorem stringLiteral_enclose (text : List Char) (offset : Nat) :
    Grammar.stringLiteral ⟨.longString, enclose text, offset⟩ =
      .ok ⟨.string (Utf8.encode (readLineBreaks (dropLineBreak text))), enclose text,
        ⟨offset, offset + byteLength (enclose text)⟩⟩ := by
  have opens := level?_enclose text []
  rw [List.append_nil] at opens
  rw [Grammar.stringLiteral, if_pos rfl, value, opens, Option.getD_some, inside_enclose]
  rfl

/-- What an enclosed text is read as. -/
structure ReadsBack (text : List Char) : Prop where
  /-- The level is one whose closing bracket does not come before the end of the text. -/
  free : ¬ closing (lowestLevel text) <:+: text ++ [']']
  /-- It is the lowest such level. -/
  lowest : ∀ level < lowestLevel text, closing level <:+: text ++ [']']
  /-- Brackets of this level stand around the text. -/
  encloses : enclose text = opening (lowestLevel text) ++ text ++ closing (lowestLevel text)
  /-- Behind two dashes it is one token, a comment, wherever it stands and whatever follows it. -/
  comment : ∀ rest offset, Token.tokensFrom offset ('-' :: '-' :: enclose text ++ rest) =
    ⟨.comment, '-' :: '-' :: enclose text, offset⟩ ::
      Token.tokensFrom (offset + byteLength ('-' :: '-' :: enclose text)) rest
  /-- The comment is a block with the same text. -/
  block : ∀ offset, Comment.ofToken ⟨.comment, '-' :: '-' :: enclose text, offset⟩ =
    ⟨text, '-' :: '-' :: enclose text, .block,
      ⟨offset, offset + byteLength ('-' :: '-' :: enclose text)⟩⟩
  /-- At the start of a source it is the first of the comments of that source. -/
  first : ∀ rest, (Program.commentsOf ('-' :: '-' :: enclose text ++ rest)).head? =
    some ⟨text, '-' :: '-' :: enclose text, .block,
      ⟨0, byteLength ('-' :: '-' :: enclose text)⟩⟩
  /-- By itself it is one token, a long string. -/
  string : Token.ofText (enclose text) = [⟨.longString, enclose text, 0⟩]
  /-- The long string has the value of the text. -/
  value : ∃ value, HasValue text value ∧
    Grammar.stringLiteral ⟨.longString, enclose text, 0⟩ =
      .ok ⟨.string (Utf8.encode value), enclose text, ⟨0, byteLength (enclose text)⟩⟩

end LongBracket

/-- Between long brackets every text is read back, as the text of a comment and as a string. -/
theorem long_brackets_read_back (text : List Char) : LongBracket.ReadsBack text where
  free := LongBracket.not_infix_lowestLevel text
  lowest _ := LongBracket.infix_of_lt_lowestLevel
  encloses := rfl
  comment := LongBracket.tokensFrom_comment text
  block := LongBracket.ofToken_comment text
  first rest := by
    rw [Program.commentsOf, Token.ofText, LongBracket.tokensFrom_comment,
      List.filter_cons_of_pos rfl, List.map_cons, LongBracket.ofToken_comment, List.head?_cons,
      Nat.zero_add]
  string := LongBracket.ofText_enclose text
  value := by
    refine ⟨_, LongBracket.hasValue_readLineBreaks text, ?_⟩
    rw [LongBracket.stringLiteral_enclose, Nat.zero_add]

end LuaStyle
