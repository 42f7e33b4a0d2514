/-
This file lists the ways in which laying out a program can fail.

A source that is a program can always be laid out. A tree that was changed after it was read may
hold a node that cannot be written where it stands, or a number whose written form names another
number.
-/

import LuaStyle.Parser.Error

namespace LuaStyle

/-- Why there is no layout. -/
inductive FormatError where
  /-- A node of this kind cannot be written in its place. -/
  | unsupportedNode (kind : List Char)
  /-- The number would change its value by being written in its normal form. -/
  | changedNumber (raw normalized : List Char)
  /-- The source is not a program. -/
  | malformedInput (error : ParseError)
deriving DecidableEq, Inhabited, Repr

/-- What went wrong, in a sentence. -/
def FormatError.message : FormatError → List Char
  | unsupportedNode kind =>
    "cannot format a ".toList ++ kind ++ " node in this position".toList
  | changedNumber raw normalized =>
    "number `".toList ++ raw ++ "` would be printed as `".toList ++ normalized
      ++ "`, which has a different value".toList
  | malformedInput error => error.message

end LuaStyle
