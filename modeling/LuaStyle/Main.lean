/-
This file is the program itself: it connects the commands to the files and channels of the system.

Only the file that is named on the command line is read, once and before the run, and everything is
shown as it is written, without colours. A run asks at most once for a file to be written. It is
made as if that went well; then the file is written, and if that fails the run is made again as one
on which writing fails.
-/

import LuaStyle.Command.Run

open LuaStyle

/-- The file that a command is about. -/
def fileOf : Command → Option (List Char)
  | .format options => some options.file
  | .printTokens file | .printTree file => some file
  | .version | .help => none

/-- The content of a file, if it can be read. -/
def readFile? (name : List Char) : IO (Option (List UInt8)) := do
  try
    let bytes ← IO.FS.readBinFile (String.ofList name)
    return some bytes.toList
  catch _ => return none

/-- All that is left of a stream, behind what was read before. -/
partial def readAll (stream : IO.FS.Stream) (before : ByteArray) : IO ByteArray := do
  let chunk ← stream.read 65536
  if chunk.isEmpty then return before else readAll stream (before ++ chunk)

/-- All of the standard input, if it can be read. -/
def readInput? : IO (Option (List UInt8)) := do
  try
    let bytes ← readAll (← IO.getStdin) ByteArray.empty
    return some bytes.toList
  catch _ => return none

/-- The content of the file that a command is about, or of the standard input. -/
def contentFor (command : Command) : IO (Option (List UInt8)) := do
  match fileOf command with
  | none => return none
  | some ['-'] => readInput?
  | some file => readFile? file

/-- Writes a file, and tells whether that went well. -/
def writeFile (name : List Char) (content : List UInt8) : IO Bool := do
  try
    IO.FS.writeBinFile (String.ofList name) ⟨content.toArray⟩
    return true
  catch _ => return false

/-- A system that has been read, and on which writing goes well or does not. The world is what was
asked to be written. -/
def systemOf (content : Option (List UInt8)) (canWrite : Bool) :
    System (Option (List Char × List UInt8)) where
  palette := ⟨fun _ => [], fun _ => []⟩
  shown := List.flatten
  contentOf _ _ := content
  inputOf _ := content
  overwrite _ file content := (canWrite, some (file, content))

/-- Runs the command line. -/
def main (arguments : List String) : IO UInt32 := do
  match Arguments.read? (arguments.map String.toList) with
  | none =>
    IO.eprintln "error: the arguments cannot be used"
    return 2
  | some command =>
    let content ← contentFor command
    let mut outcome := Run.command (systemOf content true) none command
    if let some (file, text) := outcome.world then
      unless ← writeFile file text do
        outcome := Run.command (systemOf content false) none command
    IO.print (String.ofList outcome.output)
    IO.eprint (String.ofList outcome.errors)
    return UInt32.ofNat outcome.exitCode
