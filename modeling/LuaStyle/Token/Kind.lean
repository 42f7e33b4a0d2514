/-
This file lists the kinds of tokens.

A token of Lua source is a reserved word, a symbol, a name, a literal, a comment, or one of three
kinds of malformed text. Words and symbols have one text each, and that text is also how their kind
is shown to the user; the other kinds are shown by a description. The end of the source counts as a
kind as well, so that it can be named where a token is missing, but no token in a source has it.
-/

namespace LuaStyle.Token

/-! ### Reserved words -/

/-- The reserved words. -/
inductive Keyword where
  | andWord | breakWord | doWord | elseWord | elseifWord | endWord | falseWord | forWord
  | functionWord | gotoWord | ifWord | inWord | localWord | nilWord | notWord | orWord | repeatWord
  | returnWord | thenWord | trueWord | untilWord | whileWord
deriving DecidableEq, Inhabited, Repr

namespace Keyword

/-- The text of a reserved word. -/
def text : Keyword → List Char
  | andWord => "and".toList
  | breakWord => "break".toList
  | doWord => "do".toList
  | elseWord => "else".toList
  | elseifWord => "elseif".toList
  | endWord => "end".toList
  | falseWord => "false".toList
  | forWord => "for".toList
  | functionWord => "function".toList
  | gotoWord => "goto".toList
  | ifWord => "if".toList
  | inWord => "in".toList
  | localWord => "local".toList
  | nilWord => "nil".toList
  | notWord => "not".toList
  | orWord => "or".toList
  | repeatWord => "repeat".toList
  | returnWord => "return".toList
  | thenWord => "then".toList
  | trueWord => "true".toList
  | untilWord => "until".toList
  | whileWord => "while".toList

/-- All reserved words. -/
def all : List Keyword :=
  [andWord, breakWord, doWord, elseWord, elseifWord, endWord, falseWord, forWord, functionWord,
    gotoWord, ifWord, inWord, localWord, nilWord, notWord, orWord, repeatWord, returnWord, thenWord,
    trueWord, untilWord, whileWord]

/-- The reserved word with this text. -/
def ofText? (word : List Char) : Option Keyword :=
  all.find? fun keyword => keyword.text == word

end Keyword

/-! ### Symbols -/

/-- The symbols: brackets, punctuation and operators. -/
inductive Symbol where
  | leftParen | rightParen | leftCurly | rightCurly | leftSquare | rightSquare
  | comma | semicolon | colon | colonColon | dot | dotDot | dotDotDot | equal
  | plus | minus | star | slash | percent | caret | hash
  | equalEqual | tildeEqual | less | lessEqual | greater | greaterEqual
deriving DecidableEq, Inhabited, Repr

namespace Symbol

/-- The text of a symbol. -/
def text : Symbol → List Char
  | leftParen => ['(']
  | rightParen => [')']
  | leftCurly => ['\x7b']
  | rightCurly => ['\x7d']
  | leftSquare => ['[']
  | rightSquare => [']']
  | comma => [',']
  | semicolon => [';']
  | colon => [':']
  | colonColon => [':', ':']
  | dot => ['.']
  | dotDot => ['.', '.']
  | dotDotDot => ['.', '.', '.']
  | equal => ['=']
  | plus => ['+']
  | minus => ['-']
  | star => ['*']
  | slash => ['/']
  | percent => ['%']
  | caret => ['^']
  | hash => ['#']
  | equalEqual => ['=', '=']
  | tildeEqual => ['~', '=']
  | less => ['<']
  | lessEqual => ['<', '=']
  | greater => ['>']
  | greaterEqual => ['>', '=']

/-- All symbols. A symbol stands before every shorter one, so the first match in this order is the
longest. -/
def all : List Symbol :=
  [dotDotDot, colonColon, dotDot, equalEqual, tildeEqual, lessEqual, greaterEqual, leftParen,
    rightParen, leftCurly, rightCurly, leftSquare, rightSquare, comma, semicolon, colon, dot, equal,
    plus, minus, star, slash, percent, caret, hash, less, greater]

/-- The longest symbol that the text starts with. -/
def first? (text : List Char) : Option Symbol :=
  all.find? fun symbol => symbol.text.isPrefixOf text

end Symbol

/-! ### Kinds -/

/-- What a token is. -/
inductive Kind where
  /-- A reserved word. -/
  | keyword (keyword : Keyword)
  /-- A bracket, a mark of punctuation or an operator. -/
  | symbol (symbol : Symbol)
  /-- A name of a variable, a field or a label. -/
  | name
  /-- Anything that starts like a number. Whether it is one is decided where its value is read. -/
  | number
  /-- A string between quotes. -/
  | quotedString
  /-- A string between long brackets. -/
  | longString
  /-- A comment, to the end of the line or between long brackets. -/
  | comment
  /-- A comment whose long bracket is not closed. -/
  | unterminatedComment
  /-- A string whose quote or long bracket is not closed. -/
  | unterminatedString
  /-- A character that no token starts with. -/
  | unknown
  /-- The end of the source. -/
  | endOfSource
deriving DecidableEq, Inhabited, Repr

namespace Kind

/-- How the kind is shown to the user. -/
def label : Kind → List Char
  | keyword word => word.text
  | symbol mark => mark.text
  | name => "Identifier".toList
  | number => "Number".toList
  | quotedString => "String".toList
  | longString => "Long String".toList
  | comment => "Comment".toList
  | unterminatedComment => "Unterminated Comment".toList
  | unterminatedString => "Unterminated String".toList
  | unknown => "Unknown Character".toList
  | endOfSource => "End of File".toList

/-- The kind is a reserved word. -/
def isKeyword : Kind → Bool
  | keyword _ => true
  | _ => false

/-- All tokens of the kind have the same length. -/
def hasFixedLength : Kind → Bool
  | keyword _ | symbol _ | endOfSource => true
  | _ => false

end Kind

end LuaStyle.Token
