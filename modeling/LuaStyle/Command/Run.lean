/-
This file runs commands.

A run reads a file or the standard input, writes to two channels, may change a file, and ends with
an exit code. The system that it runs on is a parameter, a record of what the system does for it:
it reads, it writes, and it shows what is printed. Reading and writing may fail. What the system is
like at a moment is a world, of which nothing is known but what these operations tell, and a run is
a function from the world in which it starts to an outcome.

A file is only ever given the whole of its formatted text, and only when the command asks for that
and the text differs. If a source cannot be read, is too large, is not UTF-8, is not a program or
has no layout, there is a message, the exit code is two, and the world stays as it is.
-/

import LuaStyle.Command.Arguments
import LuaStyle.Layout.Format
import LuaStyle.Report.Frame
import LuaStyle.Report.Message
import LuaStyle.Tree.Outline

namespace LuaStyle

/-- What a system does for a run. -/
structure System (World : Type) where
  /-- What text is painted with. -/
  palette : Palette
  /-- What is seen of the parts of a text that are written to a channel at a time. -/
  shown : Parts → List Char
  /-- The content of a file, if it can be read. -/
  contentOf : World → List Char → Option (List UInt8)
  /-- All of the standard input, if it can be read. -/
  inputOf : World → Option (List UInt8)
  /-- Gives a file another content: whether that went well, and the world behind it. -/
  overwrite : World → List Char → List UInt8 → Bool × World

/-- What a run leaves behind. -/
structure Outcome (World : Type) where
  /-- The exit code. -/
  exitCode : Nat
  /-- What is seen on the standard output. -/
  output : List Char
  /-- What is seen on the standard error channel. -/
  errors : List Char
  /-- The world. -/
  world : World
deriving DecidableEq, Inhabited, Repr

namespace Run

variable {World : Type} (system : System World)

/-! ### Outcomes -/

/-- A run that only wrote to the standard output, some parts at a time. -/
def printed (world : World) (texts : List Parts) : Outcome World :=
  ⟨0, texts.flatMap system.shown, [], world⟩

/-- A run that ended with messages, each followed by a line feed. -/
def complained (world : World) (exitCode : Nat) (complaints : List Parts) : Outcome World :=
  ⟨exitCode, [], complaints.flatMap fun parts => system.shown (parts ++ [['\n']]), world⟩

/-- A run that failed with a message. -/
def failed (world : World) (message : Message) : Outcome World :=
  complained system world 2 [message.parts system.palette]

/-- A run that failed because of something in the source. -/
def failedAt (world : World) (file source : List Char) (message : Message) (span : Span) :
    Outcome World :=
  complained system world 2
    [message.parts system.palette, (Frame.mk file source span).parts system.palette]

/-! ### Sources -/

/-- The most bytes that a source may have. -/
def sizeLimit : Nat :=
  0xFFFFFFFF

/-- The text in some bytes, or the outcome of there being none. -/
def readBytes (world : World) (bytes : List UInt8) : Except (Outcome World) (List Char) :=
  if sizeLimit < bytes.length then
    .error (failed system world { title := "File too large - max size 4GB".toList })
  else
    match Utf8.decode? bytes with
    | none => .error (failed system world { title := "Source is not valid UTF-8".toList })
    | some source => .ok source

/-- The text of a file or of the standard input, or the outcome of not having it. -/
def readSource (world : World) (file : List Char) : Except (Outcome World) (List Char) :=
  if file = ['-'] then
    match system.inputOf world with
    | none => .error (failed system world { title := "Problem Reading from STDIN".toList })
    | some bytes => readBytes system world bytes
  else
    match system.contentOf world file with
    | none =>
      .error (failed system world { title := "File not found `".toList ++ file ++ ['`'] })
    | some bytes => readBytes system world bytes

/-- The program in a source, or the outcome of there being none. -/
def readProgram (world : World) (file source : List Char) : Except (Outcome World) Program :=
  (Program.parse source).mapError fun error =>
    failedAt system world file source (.ofParseError error) error.span

/-! ### Commands -/

/-- The text that a formatted file holds: the layout, and the end of its last line if it has one. -/
def fileText (config : Config) (layout : List Char) : List Char :=
  if layout.isEmpty then [] else layout ++ config.lineEnding.text

/-- A run on a program without a layout. Where that is because of the source, the source is shown
as well. -/
def refused (world : World) (file source : List Char) (error : FormatError) : Outcome World :=
  match error with
  | .malformedInput cause =>
    failedAt system world file source (.ofFormatError error) cause.span
  | _ => failed system world (.ofFormatError error)

/-- A run that gives a file another content. -/
def replaced (world : World) (file : List Char) (content : List UInt8) : Outcome World :=
  match system.overwrite world file content with
  | (true, world) => printed system world []
  | (false, world) => failed system world { title := "Problem writing to file".toList }

/-- Formats a source. -/
def formatSource (world : World) (options : FormatOptions) (source : List Char)
    (program : Program) : Outcome World :=
  match program.format options.config with
  | .error error => refused system world options.file source error
  | .ok layout =>
    let text := fileText options.config layout
    if options.dryRun then
      printed system world [[text]]
    else if options.check then
      if text = source then
        printed system world []
      else
        complained system world 1 [Message.parts system.palette
          { title := "File is not formatted".toList
            body := '`' :: displayName options.file ++ "` is not formatted".toList
            hint := some "run without `--check` to format it".toList }]
    else if options.file = ['-'] then
      printed system world [[text]]
    else if text = source then
      printed system world []
    else
      replaced system world options.file (Utf8.encode text)

/-- The line that shows a token. -/
def tokenTexts (token : Token) : List Parts :=
  [paddedNumber token.start ++ [" │ ".toList, token.kind.label]]
    ++ (if token.kind.hasFixedLength then []
      else [[" (length: ".toList, decimalDigits token.length, [')']]])
    ++ [[['\n']]]

/-- The tokens of a source as they are shown. -/
def tokensTexts (file source : List Char) : List Parts :=
  [["    ╭─[Tokens: ".toList, displayName file, "]\n".toList]]
    ++ (Token.ofText source).flatMap tokenTexts ++ [["────╯\n".toList]]

/-- The syntax tree of a program as it is shown. -/
def treeTexts (file : List Char) (program : Program) : List Parts :=
  [["╭─[Abstract Syntax Tree: ".toList, displayName file, "]\n".toList], [program.display],
    ["╯\n".toList]]

/-- The outcome of a computation that may end early. -/
def outcome : Except (Outcome World) (Outcome World) → Outcome World
  | .ok result => result
  | .error result => result

/-- Runs a command. -/
def command (world : World) : Command → Outcome World
  | .format options => outcome do
    let source ← readSource system world options.file
    let program ← readProgram system world options.file source
    return formatSource system world options source program
  | .printTokens file => outcome do
    let source ← readSource system world file
    return printed system world (tokensTexts file source)
  | .printTree file => outcome do
    let source ← readSource system world file
    let program ← readProgram system world file source
    return printed system world (treeTexts file program)
  | .version => printed system world [["luafmt 0.1.0\n".toList]]
  | .help => printed system world []

end Run

/-- Runs the program with the given arguments. Arguments that cannot be used have no outcome. -/
def runProgram {World : Type} (system : System World) (arguments : List (List Char))
    (world : World) : Option (Outcome World) :=
  (Arguments.read? arguments).map (Run.command system world)

end LuaStyle
