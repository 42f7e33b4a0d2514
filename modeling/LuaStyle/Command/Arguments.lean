/-
This file reads the arguments of the command line.

There are two commands, one that formats a file and one that prints what was read from it. Options
stand before or after the file; each can be given once. An option with a value takes it from behind
an equals sign or from the next argument. Two dashes alone end the options, and a single dash is not
an option but the standard input.

Arguments are read from left to right. The first one that does not fit makes them unusable as a
whole, and the first one that asks for help or for the version settles what is asked, whatever
stands behind it.
-/

import LuaStyle.Layout.Config

namespace LuaStyle

/-- What is asked about a file that is to be formatted. -/
structure FormatOptions where
  /-- The file, or a dash. -/
  file : List Char
  /-- Show the result and leave the file alone. -/
  dryRun : Bool
  /-- Only tell whether the file is formatted. -/
  check : Bool
  /-- The choices about the layout. -/
  config : Config
deriving DecidableEq, Inhabited, Repr

/-- What is asked of the program. -/
inductive Command where
  /-- Format a file. -/
  | format (options : FormatOptions)
  /-- Print the tokens of a file. -/
  | printTokens (file : List Char)
  /-- Print the syntax tree of a file. -/
  | printTree (file : List Char)
  /-- Print the version of the program. -/
  | version
  /-- Print how the program is used. -/
  | help
deriving DecidableEq, Inhabited, Repr

namespace Arguments

/-! ### Values -/

/-- A truth value. -/
def truth? (value : List Char) : Option Bool :=
  if value = "true".toList then some true
  else if value = "false".toList then some false
  else none

/-- A quote. -/
def quoteStyle? (value : List Char) : Option QuoteStyle :=
  if value = "double".toList then some .double
  else if value = "single".toList then some .single
  else none

/-- A line ending. -/
def lineEnding? (value : List Char) : Option LineEnding :=
  if value = "lf".toList then some .lineFeed
  else if value = "crlf".toList then some .carriageReturnLineFeed
  else if value = "native".toList then some .native
  else none

/-- A natural number in decimal digits. -/
def natural? (digits : List Char) : Option Nat :=
  if digits ≠ [] ∧ digits.all Char.isDigit then some (Nat.ofDigitChars 10 digits 0) else none

/-- An indentation size: a whole number, with a sign if wanted, that fits sixteen bits. -/
def size? (value : List Char) : Option Nat :=
  let size : Option Nat :=
    match value with
    | '+' :: digits => natural? digits
    | '-' :: digits => (natural? digits).filter (· == 0)
    | digits => natural? digits
  size.filter (· < 65536)

/-! ### Options -/

/-- What has been read of the arguments of the format command. Options that were given are not yet
merged with the defaults, so that one given twice is noticed. -/
structure Given where
  file : Option (List Char) := none
  dryRun : Option Unit := none
  check : Option Unit := none
  extraNewlines : Option Bool := none
  inlineBlocks : Option Bool := none
  inlineTables : Option Bool := none
  quoteStyle : Option QuoteStyle := none
  indentSize : Option Nat := none
  lineEnding : Option LineEnding := none
deriving DecidableEq, Inhabited, Repr

/-- Sets what was not set before. -/
def once {Value : Type} (earlier : Option Value) (value : Value) : Option (Option Value) :=
  match earlier with
  | none => some (some value)
  | some _ => none

/-- Sets the file, which is given once. -/
def Given.setFile (given : Given) (file : List Char) : Option Given :=
  (once given.file file).map fun file => { given with file }

/-- Sets an option that has no value. -/
def Given.setFlag (given : Given) (option : List Char) : Option Given :=
  if option = "dryrun".toList then
    (once given.dryRun ()).map fun dryRun => { given with dryRun }
  else if option = "check".toList then
    (once given.check ()).map fun check => { given with check }
  else
    none

/-- Sets an option to a value. -/
def Given.setValue (given : Given) (option value : List Char) : Option Given :=
  if option = "config-extra-newlines".toList then do
    let extraNewlines ← once given.extraNewlines (← truth? value)
    return { given with extraNewlines }
  else if option = "config-inline-block".toList then do
    let inlineBlocks ← once given.inlineBlocks (← truth? value)
    return { given with inlineBlocks }
  else if option = "config-inline-table".toList then do
    let inlineTables ← once given.inlineTables (← truth? value)
    return { given with inlineTables }
  else if option = "config-quote-style".toList then do
    let quoteStyle ← once given.quoteStyle (← quoteStyle? value)
    return { given with quoteStyle }
  else if option = "config-indent-size".toList then do
    let indentSize ← once given.indentSize (← size? value)
    return { given with indentSize }
  else if option = "config-line-ending".toList then do
    let lineEnding ← once given.lineEnding (← lineEnding? value)
    return { given with lineEnding }
  else
    none

/-- The options that were given, together with the defaults of those that were not. The file has no
default. -/
def Given.options? (given : Given) : Option FormatOptions :=
  given.file.map fun file =>
    { file
      dryRun := given.dryRun.isSome
      check := given.check.isSome
      config :=
        { extraNewlines := given.extraNewlines.getD true
          inlineBlocks := given.inlineBlocks.getD true
          inlineTables := given.inlineTables.getD true
          quoteStyle := given.quoteStyle.getD .double
          indentation := .ofSize (given.indentSize.getD 0)
          lineEnding := given.lineEnding.getD .native } }

/-! ### Arguments of the commands -/

/-- The argument does not start like an option. -/
def isPositional : List Char → Bool
  | '-' :: _ :: _ => false
  | _ => true

/-- The argument starts with the short option of this letter. What is written right behind the
letter would be further short options, and does not matter where the first one settles what is
asked. -/
def isShort (letter : Char) : List Char → Bool
  | '-' :: first :: _ => first == letter
  | _ => false

/-- The argument asks how the program is used. -/
def asksForHelp (argument : List Char) : Bool :=
  argument = "--help".toList || isShort 'h' argument

/-- The argument asks for the version of the program. -/
def asksForVersion (argument : List Char) : Bool :=
  argument = "--version".toList || isShort 'V' argument

/-- The file, if there is one, once the arguments behind the end of the options are read as well.
All of them are files, however they start, and there is one file at most. -/
def filesOnly (file : Option (List Char)) : List (List Char) → Option (Option (List Char))
  | [] => some file
  | argument :: rest => (once file argument).bind fun file => filesOnly file rest

/-- The arguments of the format command. -/
def formatCommand (given : Given) : List (List Char) → Option Command
  | [] => given.options?.map .format
  | argument :: rest =>
    if argument = "--".toList then
      (filesOnly given.file rest).bind fun file => { given with file }.options?.map .format
    else if asksForHelp argument then
      some .help
    else if isPositional argument then
      (given.setFile argument).bind fun given => formatCommand given rest
    else
      match argument with
      | '-' :: '-' :: option =>
        let name := option.takeWhile (· != '=')
        match option.dropWhile (· != '=') with
        | _ :: value => (given.setValue name value).bind fun given => formatCommand given rest
        | [] =>
          match given.setFlag name with
          | some given => formatCommand given rest
          | none =>
            match rest with
            | value :: rest =>
              if isPositional value then
                (given.setValue name value).bind fun given => formatCommand given rest
              else
                none
            | [] => none
      | _ => none

/-- The arguments of a command that prints a file and has no options. -/
def fileCommand (command : List Char → Command) (file : Option (List Char)) :
    List (List Char) → Option Command
  | [] => file.map command
  | argument :: rest =>
    if argument = "--".toList then
      (filesOnly file rest).bind fun file => file.map command
    else if asksForHelp argument then
      some .help
    else if isPositional argument then
      (once file argument).bind fun file => fileCommand command file rest
    else
      none

/-- The arguments of the print command. -/
def printCommand : List (List Char) → Option Command
  | [] => none
  | what :: rest =>
    if asksForHelp what then some .help
    else if what = "tokens".toList then fileCommand .printTokens none rest
    else if what = "ast".toList then fileCommand .printTree none rest
    else none

/-- Reads the arguments, or answers that they cannot be used. They are read from left to right, and
the first one that asks for help or for the version, or that does not fit, settles the answer. -/
def read? : List (List Char) → Option Command
  | [] => none
  | command :: rest =>
    if command = "format".toList ∨ command = "fmt".toList then formatCommand {} rest
    else if command = "print".toList then printCommand rest
    else if asksForVersion command then some .version
    else if asksForHelp command then some .help
    else none

end Arguments

end LuaStyle
