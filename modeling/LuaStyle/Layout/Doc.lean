/-
This file defines laid-out text before it becomes characters.

A document is a list of characters and line breaks, where a line break knows how deep the next line
is indented. All decisions about layout are made on documents, and since neither the indentation nor
the line ending has a length there, no decision can depend on them: `Doc.render` puts both in at the
very end.
-/

namespace LuaStyle

/-- One element of laid-out text. -/
inductive Piece where
  /-- A character within a line. -/
  | char (c : Char)
  /-- The end of a line, and the depth at which the next one starts. -/
  | lineBreak (depth : Nat)
deriving DecidableEq, Inhabited, Repr

/-- Laid-out text. -/
abbrev Doc := List Piece

namespace Doc

/-- The longest a document may be to stay inside a line. -/
def inlineWidth : Nat := 60

/-- A text as a document. A line feed within it starts a line without indentation. -/
def ofText (text : List Char) : Doc :=
  text.map fun c => if c = '\n' then .lineBreak 0 else .char c

/-- The piece ends a line. -/
def isLineBreak : Piece → Bool
  | .lineBreak _ => true
  | .char _ => false

/-- The document may stay inside a line: it has no line break and is not too long. -/
def fitsInline (doc : Doc) : Bool :=
  doc.length ≤ inlineWidth && !doc.any isLineBreak

/-- Documents one after the other, with commas between them. -/
def commaSeparated (docs : List Doc) : Doc :=
  (ofText [',', ' ']).intercalate docs

/-- The document, in parentheses if they are needed. -/
def parenthesize (needed : Bool) (doc : Doc) : Doc :=
  if needed then .char '(' :: doc ++ [.char ')'] else doc

/-- The text of a document for the given text of one level of indentation and the given end of a
line. -/
def render (unit ending : List Char) (doc : Doc) : List Char :=
  doc.flatMap fun
    | .char c => [c]
    | .lineBreak depth => ending ++ (List.replicate depth unit).flatten

end Doc

end LuaStyle
