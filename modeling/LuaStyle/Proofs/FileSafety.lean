/-
This file says that formatting a file never damages it.

A run of the format command on a file that can be read goes one of four ways. The bytes may have no
formatted text, since they are not UTF-8, not a program, or a program without a layout: then the
run fails and leaves the world alone. If they have one, the run shows the text, or compares the file
with it, or sees to it that the file holds it, which it does by one request to the system to give
the file the text, or by none if the file holds the text already. Nothing is assumed of the system
for this. What a file holds behind such a request, and what is seen of a text that is written to a
channel, is up to the system, and where it matters it is a hypothesis with a name.

The last part chains two runs. A formatted file holds the layout and the end of its last line, and
is formatted to itself if the source has no chain that regroups: the end of the line is blank, so it
is read as the layout is, and the layout of the layout is the layout.
-/

import LuaStyle.Command.Run
import LuaStyle.Proofs.Idempotence

namespace LuaStyle

/-! ### Bytes -/

namespace Utf8

/-- What is read is what is written. -/
theorem encode_of_decode? {bytes : List UInt8} {text : List Char}
    (read : decode? bytes = some text) : encode text = bytes := by
  fun_induction decode? bytes generalizing text with
  | case1 =>
    cases read
    rfl
  | case2 byte rest inductionHypothesis =>
    obtain ⟨c, first, read⟩ := Option.bind_eq_some_iff.1 read
    obtain ⟨more, others, rfl⟩ := Option.map_eq_some_iff.1 read
    have written : String.utf8EncodeChar c <+: byte :: rest := by
      unfold first? at first
      dsimp only at first
      split at first <;> cases first
      assumption
    obtain ⟨size, size_eq⟩ := Nat.exists_eq_add_one_of_ne_zero (Nat.ne_of_gt (Char.utf8Size_pos c))
    have cut := List.prefix_iff_eq_take.1 written
    rw [String.length_utf8EncodeChar, size_eq] at cut
    have behind := inductionHypothesis c others
    rw [size_eq, Nat.add_sub_cancel] at behind
    show String.utf8EncodeChar c ++ encode more = byte :: rest
    rw [behind, cut, List.take_succ_cons, List.cons_append, List.take_append_drop]

theorem decode?_eq_some_iff {bytes : List UInt8} {text : List Char} :
    decode? bytes = some text ↔ bytes = encode text := by
  constructor
  · exact fun read => (encode_of_decode? read).symm
  · rintro rfl
    exact decode?_encode text

end Utf8

/-! ### What a file is formatted to -/

/-- The text that a file of these bytes holds when it is formatted, if it can be. -/
def formattedText? (config : Config) (bytes : List UInt8) : Option (List Char) := do
  let source ← Utf8.decode? bytes
  let layout ← (formatText config source).toOption
  return Run.fileText config layout

/-- The text that a file is formatted to is the layout of its source and the end of the last
line. -/
theorem exists_layout {config : Config} {bytes : List UInt8} {source text : List Char}
    (read : Utf8.decode? bytes = some source)
    (formatted : formattedText? config bytes = some text) :
    ∃ layout, formatText config source = .ok layout ∧ text = Run.fileText config layout := by
  rw [formattedText?, read, Option.bind_eq_bind, Option.bind_some] at formatted
  cases laid : formatText config source with
  | ok layout =>
    rw [laid] at formatted
    exact ⟨layout, rfl, (Option.some.inj formatted).symm⟩
  | error error =>
    rw [laid] at formatted
    cases formatted

/-- The end of a line ends a comment before it, and is blank. -/
theorem LineEnding.lineEnds (lineEnding : LineEnding) :
    LineEnds lineEnding.text ∧ ∀ c ∈ lineEnding.text, Token.isSpace c := by
  have breaks : lineEnding.text.all Token.isLineBreak ∧ lineEnding.text.all Token.isSpace := by
    cases lineEnding <;> exact ⟨rfl, rfl⟩
  exact ⟨fun c first => List.all_eq_true.1 breaks.1 c (List.mem_of_head? first),
    List.all_eq_true.1 breaks.2⟩

/-- The text of a formatted file has the layout that was written into it, unless the source has a
chain that regroups. -/
theorem formatText_fileText (config : Config) {source : List Char} {program : Program}
    (parsed : Program.parse source = .ok program)
    (plain : ∀ node ∈ Statement.nodesOfAll program.chunk.body, node.regroups = false)
    {layout : List Char} (laid : formatText config source = .ok layout) :
    formatText config (Run.fileText config layout) = .ok layout := by
  have same (ending : List Char) (ends : LineEnds ending) (blank : ∀ c ∈ ending, Token.isSpace c) :
      formatText config (layout ++ ending) = .ok layout := by
    obtain ⟨text, read, found, reads, same⟩ :=
      Program.format_reads_followed config parsed ends blank
    obtain rfl : text = layout := Except.ok.inj (found.symm.trans laid)
    rw [formatText, parsed] at laid
    exact Program.formatText_layout laid reads same (program.noneRegroups_arrange.2 plain)
  unfold Run.fileText
  split
  next empty =>
    obtain rfl := List.isEmpty_iff.1 empty
    refine same [] ?_ (List.forall_mem_nil _)
    rintro c ⟨⟩
  · exact same _ config.lineEnding.lineEnds.1 config.lineEnding.lineEnds.2

/-- A formatted file is formatted to what it holds, unless the source has a chain that regroups. -/
theorem formattedText?_encode (config : Config) {bytes : List UInt8} {source text : List Char}
    {program : Program} (read : Utf8.decode? bytes = some source)
    (parsed : Program.parse source = .ok program)
    (plain : ∀ node ∈ Statement.nodesOfAll program.chunk.body, node.regroups = false)
    (formatted : formattedText? config bytes = some text) :
    formattedText? config (Utf8.encode text) = some text := by
  obtain ⟨layout, laid, rfl⟩ := exists_layout read formatted
  rw [formattedText?, Utf8.decode?_encode, Option.bind_eq_bind, Option.bind_some,
    formatText_fileText config parsed plain laid]
  rfl

/-! ### Runs -/

namespace Run

variable {World : Type} {system : System World} {world : World} {options : FormatOptions}
  {bytes : List UInt8}

/-- Bytes that are not too many are a source if they are UTF-8. -/
theorem readSource_file (named : options.file ≠ ['-'])
    (found : system.contentOf world options.file = some bytes) (short : bytes.length ≤ sizeLimit) :
    readSource system world options.file =
      match Utf8.decode? bytes with
      | none => .error (failed system world { title := "Source is not valid UTF-8".toList })
      | some source => .ok source := by
  rw [readSource, if_neg named, found]
  exact if_neg (Nat.not_lt.2 short)

/-- A run on a file that is too large to be read. -/
theorem command_of_tooLarge (named : options.file ≠ ['-'])
    (found : system.contentOf world options.file = some bytes) (long : sizeLimit < bytes.length) :
    command system world (.format options) =
      failed system world { title := "File too large - max size 4GB".toList } := by
  rw [command, readSource, if_neg named, found]
  dsimp only
  rw [readBytes, if_pos long]
  rfl

/-- A run on a file that is not UTF-8. -/
theorem command_of_unread (named : options.file ≠ ['-'])
    (found : system.contentOf world options.file = some bytes) (short : bytes.length ≤ sizeLimit)
    (unread : Utf8.decode? bytes = none) :
    command system world (.format options) =
      failed system world { title := "Source is not valid UTF-8".toList } := by
  rw [command, readSource_file named found short, unread]
  rfl

/-- A run on a file whose content can be read. -/
theorem command_format (named : options.file ≠ ['-'])
    (found : system.contentOf world options.file = some bytes) (short : bytes.length ≤ sizeLimit)
    {source : List Char} (read : Utf8.decode? bytes = some source) :
    command system world (.format options) = outcome do
      let program ← readProgram system world options.file source
      return formatSource system world options source program := by
  rw [command, readSource_file named found short, read]
  rfl

/-- A run on a file that is not a program. -/
theorem command_of_rejected (named : options.file ≠ ['-'])
    (found : system.contentOf world options.file = some bytes) (short : bytes.length ≤ sizeLimit)
    {source : List Char} (read : Utf8.decode? bytes = some source) {error : ParseError}
    (refused : Program.parse source = .error error) :
    command system world (.format options) =
      failedAt system world options.file source (.ofParseError error) error.span := by
  rw [command_format named found short read, readProgram, refused]
  rfl

/-- A run on a program formats it. -/
theorem command_of_parsed (named : options.file ≠ ['-'])
    (found : system.contentOf world options.file = some bytes) (short : bytes.length ≤ sizeLimit)
    {source : List Char} (read : Utf8.decode? bytes = some source) {program : Program}
    (parsed : Program.parse source = .ok program) :
    command system world (.format options) = formatSource system world options source program := by
  rw [command_format named found short read, readProgram, parsed]
  rfl

/-- The run left the world alone, showed nothing on the standard output and ended with the code. -/
structure Spares (world : World) (exitCode : Nat) (result : Outcome World) : Prop where
  exitCode : result.exitCode = exitCode
  output : result.output = []
  world : result.world = world

/-- A run on a program without a layout. -/
theorem spares_refused (file source : List Char) (error : FormatError) :
    Spares world 2 (refused system world file source error) := by
  unfold refused
  split <;> exact ⟨rfl, rfl, rfl⟩

/-- A run on a file that cannot be formatted. -/
theorem spares_of_none (named : options.file ≠ ['-'])
    (found : system.contentOf world options.file = some bytes) (short : bytes.length ≤ sizeLimit)
    (none : formattedText? options.config bytes = none) :
    Spares world 2 (command system world (.format options)) := by
  cases read : Utf8.decode? bytes with
  | none =>
    rw [command_of_unread named found short read]
    exact ⟨rfl, rfl, rfl⟩
  | some source =>
  cases parsed : Program.parse source with
  | error error =>
    rw [command_of_rejected named found short read parsed]
    exact ⟨rfl, rfl, rfl⟩
  | ok program =>
  cases laid : program.format options.config with
  | error error =>
    rw [command_of_parsed named found short read parsed, formatSource, laid]
    exact spares_refused options.file source error
  | ok layout =>
    have text : formatText options.config source = .ok layout := by
      rw [formatText, parsed]
      exact laid
    rw [formattedText?, read, Option.bind_eq_bind, Option.bind_some, text] at none
    cases none

/-- A run on a file that can be formatted goes on with the text. -/
theorem command_of_some (named : options.file ≠ ['-'])
    (found : system.contentOf world options.file = some bytes) (short : bytes.length ≤ sizeLimit)
    {text : List Char} (formatted : formattedText? options.config bytes = some text) :
    command system world (.format options) =
      if options.dryRun then printed system world [[text]]
      else if options.check then
        if bytes = Utf8.encode text then printed system world []
        else complained system world 1 [Message.parts system.palette
          { title := "File is not formatted".toList
            body := '`' :: displayName options.file ++ "` is not formatted".toList
            hint := some "run without `--check` to format it".toList }]
      else if bytes = Utf8.encode text then printed system world []
      else replaced system world options.file (Utf8.encode text) := by
  cases read : Utf8.decode? bytes with
  | none =>
    rw [formattedText?, read] at formatted
    cases formatted
  | some source =>
    obtain ⟨layout, laid, rfl⟩ := exists_layout read formatted
    have bytesSame : bytes = Utf8.encode (fileText options.config layout) ↔
        fileText options.config layout = source := by
      rw [← Utf8.decode?_eq_some_iff, read]
      exact ⟨fun same => (Option.some.inj same).symm, fun same => congrArg some same.symm⟩
    rw [formatText] at laid
    split at laid
    next program parsed =>
      rw [command_of_parsed named found short read parsed, formatSource, laid]
      simp only [bytesSame, if_neg named]
    · cases laid

/-- A run that only shows. -/
theorem command_of_dryRun (named : options.file ≠ ['-'])
    (found : system.contentOf world options.file = some bytes) (short : bytes.length ≤ sizeLimit)
    {text : List Char} (formatted : formattedText? options.config bytes = some text)
    (shows : options.dryRun) :
    command system world (.format options) = ⟨0, system.shown [text], [], world⟩ := by
  rw [command_of_some named found short formatted, if_pos shows, printed, List.flatMap_singleton]

/-- A run that checks a file tells whether the file holds the text that it is formatted to. -/
theorem spares_of_check (named : options.file ≠ ['-'])
    (found : system.contentOf world options.file = some bytes) (short : bytes.length ≤ sizeLimit)
    {text : List Char} (formatted : formattedText? options.config bytes = some text)
    (shows : options.dryRun = false) (checks : options.check) :
    Spares world (if bytes = Utf8.encode text then 0 else 1)
      (command system world (.format options)) := by
  rw [command_of_some named found short formatted, shows, if_neg Bool.false_ne_true, if_pos checks]
  split <;> exact ⟨rfl, rfl, rfl⟩

/-- The run asked the system once to give the file the content, showed nothing on the standard
output, and ended with the code that tells how that went. -/
structure Replaces (system : System World) (world : World) (file : List Char)
    (content : List UInt8) (result : Outcome World) : Prop where
  exitCode : result.exitCode = if (system.overwrite world file content).1 then 0 else 2
  output : result.output = []
  world : result.world = (system.overwrite world file content).2

theorem replaces_replaced (file : List Char) (content : List UInt8) :
    Replaces system world file content (replaced system world file content) := by
  unfold replaced
  split
  next after written => exact ⟨by rw [written]; rfl, rfl, by rw [written]; rfl⟩
  next after written => exact ⟨by rw [written]; rfl, rfl, by rw [written]; rfl⟩

/-- A run that neither shows nor checks has nothing to do if the file holds the text that it is
formatted to. -/
theorem spares_of_same (named : options.file ≠ ['-'])
    (found : system.contentOf world options.file = some bytes) (short : bytes.length ≤ sizeLimit)
    {text : List Char} (formatted : formattedText? options.config bytes = some text)
    (shows : options.dryRun = false) (checks : options.check = false)
    (same : bytes = Utf8.encode text) :
    Spares world 0 (command system world (.format options)) := by
  rw [command_of_some named found short formatted, shows, checks, if_neg Bool.false_ne_true,
    if_neg Bool.false_ne_true, if_pos same]
  exact ⟨rfl, rfl, rfl⟩

/-- A run that neither shows nor checks replaces what the file holds if that is anything else. -/
theorem replaces_of_ne (named : options.file ≠ ['-'])
    (found : system.contentOf world options.file = some bytes) (short : bytes.length ≤ sizeLimit)
    {text : List Char} (formatted : formattedText? options.config bytes = some text)
    (shows : options.dryRun = false) (checks : options.check = false)
    (different : bytes ≠ Utf8.encode text) :
    Replaces system world options.file (Utf8.encode text)
      (command system world (.format options)) := by
  rw [command_of_some named found short formatted, shows, checks, if_neg Bool.false_ne_true,
    if_neg Bool.false_ne_true, if_neg different]
  exact replaces_replaced options.file _

end Run

/-! ### What is known of a system -/

/-- A file that was written well holds what was written into it. -/
def System.Keeps {World : Type} (system : System World) : Prop :=
  ∀ world file content, (system.overwrite world file content).1 →
    system.contentOf (system.overwrite world file content).2 file = some content

/-- The character is seen wherever it is written: it is not a control character, apart from those
that are blank. -/
def isVisible (c : Char) : Bool :=
  c == '\t' || c == '\n' || c == '\r' || (0x20 ≤ c.toNat && c.toNat ≤ 0x7E) || 0xA0 ≤ c.toNat

/-- What is known of channels where there is no terminal: text without control characters is seen as
it is written, and an escape character is never seen. -/
structure System.IsPlain {World : Type} (system : System World) : Prop where
  keeps : ∀ text, (∀ c ∈ text, isVisible c) → system.shown [text] = text
  drops : ∀ parts, '\x1b' ∉ system.shown parts

/-! ### The format command -/

open Run

/-- A run that ends well where it neither shows nor checks has made the file hold the text that it
is formatted to. -/
theorem holds_of_exitCode {World : Type} {system : System World} {world : World}
    {options : FormatOptions} {bytes : List UInt8} (keeps : system.Keeps)
    (named : options.file ≠ ['-']) (found : system.contentOf world options.file = some bytes)
    (short : bytes.length ≤ sizeLimit) {text : List Char}
    (formatted : formattedText? options.config bytes = some text) (shows : options.dryRun = false)
    (checks : options.check = false)
    (ended : (command system world (.format options)).exitCode = 0) :
    system.contentOf (command system world (.format options)).world options.file =
      some (Utf8.encode text) := by
  by_cases same : bytes = Utf8.encode text
  · rw [(spares_of_same named found short formatted shows checks same).world, found, same]
  · have replaces := replaces_of_ne named found short formatted shows checks same
    rw [replaces.exitCode] at ended
    rw [replaces.world]
    refine keeps _ _ _ (by_contra fun failed => ?_)
    rw [if_neg failed] at ended
    cases ended

/-- Formatting a file whose content can be read leaves the world as it is or gives the file the
formatted text. Content that cannot be formatted is left alone, with the exit code two. Otherwise
the run shows the text; or tells whether the file holds the text; or, if it does not hold it
already, asks the system for that, with an exit code that tells how it went. If it went well, the
file holds the text after that, and it passes a check, unless the source has a chain of an operator
that regroups. -/
theorem format_command_spares_files {World : Type} {system : System World} {world : World}
    {options : FormatOptions} {bytes : List UInt8} (named : options.file ≠ ['-'])
    (found : system.contentOf world options.file = some bytes)
    (short : bytes.length < sizeLimit) :
    (formattedText? options.config bytes = none →
      Spares world 2 (command system world (.format options))) ∧
    ∀ text, formattedText? options.config bytes = some text →
      (options.dryRun →
        command system world (.format options) = ⟨0, system.shown [text], [], world⟩) ∧
      (options.dryRun = false → options.check →
        Spares world (if bytes = Utf8.encode text then 0 else 1)
          (command system world (.format options))) ∧
      (options.dryRun = false → options.check = false →
        (bytes = Utf8.encode text → Spares world 0 (command system world (.format options))) ∧
        (bytes ≠ Utf8.encode text → Replaces system world options.file (Utf8.encode text)
          (command system world (.format options))) ∧
        (system.Keeps → (command system world (.format options)).exitCode = 0 →
          system.contentOf (command system world (.format options)).world options.file =
            some (Utf8.encode text) ∧
          ∀ source program, Utf8.decode? bytes = some source →
            Program.parse source = .ok program →
            (∀ node ∈ Statement.nodesOfAll program.chunk.body, node.regroups = false) →
            (Utf8.encode text).length < sizeLimit →
            (command system (command system world (.format options)).world
              (.format { options with check := true })).exitCode = 0)) := by
  have read := Nat.le_of_lt short
  refine ⟨spares_of_none named found read, fun text formatted =>
    ⟨command_of_dryRun named found read formatted, spares_of_check named found read formatted,
      fun shows checks => ⟨spares_of_same named found read formatted shows checks,
        replaces_of_ne named found read formatted shows checks, fun keeps ended => ?_⟩⟩⟩
  have holds := holds_of_exitCode keeps named found read formatted shows checks ended
  refine ⟨holds, fun source program decoded parsed plain fits => ?_⟩
  have again := formattedText?_encode options.config decoded parsed plain formatted
  have checked := @spares_of_check _ system _ { options with check := true } _ named holds
    (Nat.le_of_lt fits) _ again shows rfl
  rw [checked.exitCode, if_pos rfl]

/-- Where there is no terminal, a dry run shows a formatted text that has no control characters. One
that has an escape character is never what it shows. -/
theorem dryRun_shows_visible_text {World : Type} {system : System World} {world : World}
    {options : FormatOptions} {bytes : List UInt8} (plain : system.IsPlain)
    (named : options.file ≠ ['-']) (found : system.contentOf world options.file = some bytes)
    (short : bytes.length ≤ sizeLimit) {text : List Char}
    (formatted : formattedText? options.config bytes = some text) (shows : options.dryRun) :
    ((∀ c ∈ text, isVisible c) → (command system world (.format options)).output = text) ∧
      ('\x1b' ∈ text → (command system world (.format options)).output ≠ text) := by
  rw [command_of_dryRun named found short formatted shows]
  refine ⟨plain.keeps text, fun escape same => plain.drops [text] ?_⟩
  dsimp only at same
  rwa [same]

/-! ### A system with one file -/

/-- A text without what stands between an escape character and the next letter. -/
def withoutSequences (inside : Bool) : List Char → List Char
  | [] => []
  | c :: rest =>
    if c = '\x1b' then withoutSequences true rest
    else if inside then withoutSequences (!c.isAlpha) rest
    else c :: withoutSequences false rest

/-- A system without a terminal and with one file, whose content is the world. Writing it goes
well. -/
def System.ofFile (name : List Char) : System (List UInt8) where
  palette := ⟨fun _ => [], fun _ => []⟩
  shown parts := withoutSequences false parts.flatten
  contentOf world file := if file = name then some world else none
  inputOf _ := none
  overwrite world file content := if file = name then (true, content) else (false, world)

theorem System.keeps_ofFile (name : List Char) : (System.ofFile name).Keeps := by
  intro world file content written
  by_cases same : file = name
  · simp only [System.ofFile, if_pos same]
  · simp only [System.ofFile, if_neg same] at written
    cases written

theorem System.isPlain_ofFile (name : List Char) : (System.ofFile name).IsPlain where
  keeps text visible := by
    show withoutSequences false (text ++ []) = text
    rw [List.append_nil]
    induction text with
    | nil => rfl
    | cons c rest inductionHypothesis =>
      obtain ⟨first, others⟩ := List.forall_mem_cons.1 visible
      have noEscape : c ≠ '\x1b' := by
        rintro rfl
        exact absurd first (by decide)
      rw [withoutSequences, if_neg noEscape, if_neg Bool.false_ne_true, inductionHypothesis others]
  drops parts := by
    show '\x1b' ∉ withoutSequences false parts.flatten
    generalize parts.flatten = text
    generalize false = inside
    fun_induction withoutSequences inside text with
    | case1 => exact List.not_mem_nil
    | case2 => assumption
    | case3 => assumption
    | case4 inside c rest noEscape _ inductionHypothesis =>
      exact List.not_mem_cons_of_ne_of_not_mem (Ne.symm noEscape) inductionHypothesis

/-- A sum without blanks, and with parentheses that it does not need. A run shows it with the blanks
and without the parentheses, another one finds that it is not formatted, and a third one writes what
a check finds formatted. Half of the sum is left alone. -/
theorem format_command_spares_files_of_sum :
    Run.command (.ofFile ['a']) (Utf8.encode "x=(1)+2".toList) (.format ⟨['a'], true, false, {}⟩) =
        ⟨0, "x = 1 + 2\n".toList, [], Utf8.encode "x=(1)+2".toList⟩ ∧
      Run.Spares (Utf8.encode "x=(1)+2".toList) 1
        (Run.command (.ofFile ['a']) (Utf8.encode "x=(1)+2".toList)
          (.format ⟨['a'], false, true, {}⟩)) ∧
      (∃ result, Run.command (.ofFile ['a']) (Utf8.encode "x=(1)+2".toList)
          (.format ⟨['a'], false, false, {}⟩) = result ∧ result.exitCode = 0 ∧
        result.world = Utf8.encode "x = 1 + 2\n".toList ∧
        (Run.command (.ofFile ['a']) result.world
          (.format ⟨['a'], false, true, {}⟩)).exitCode = 0) ∧
      Run.Spares (Utf8.encode "x=(1)+".toList) 2
        (Run.command (.ofFile ['a']) (Utf8.encode "x=(1)+".toList)
          (.format ⟨['a'], false, false, {}⟩)) := by
  have named : (['a'] : List Char) ≠ ['-'] := by decide
  have short : (Utf8.encode "x=(1)+2".toList).length < Run.sizeLimit := by decide
  have formatted : formattedText? {} (Utf8.encode "x=(1)+2".toList) =
      some "x = 1 + 2\n".toList := by decide +kernel
  have different : Utf8.encode "x=(1)+2".toList ≠ Utf8.encode "x = 1 + 2\n".toList := by decide
  have run (dryRun check : Bool) := (@format_command_spares_files _ (.ofFile ['a'])
    (Utf8.encode "x=(1)+2".toList) ⟨['a'], dryRun, check, {}⟩ _ named rfl short).2 _ formatted
  obtain ⟨-, replaces, holds⟩ := (run false false).2.2 rfl rfl
  have written := replaces different
  have unformatted := (run false true).2.1 rfl rfl
  rw [if_neg different] at unformatted
  refine ⟨(run true false).1 rfl, unformatted, ⟨_, rfl, written.exitCode, written.world, ?_⟩, ?_⟩
  · obtain ⟨program, parsed⟩ := Program.exists_of_isOk
      (show (Program.parse "x=(1)+2".toList).isOk by decide +kernel)
    have plain : (Program.parse "x=(1)+2".toList).toOption.all fun program : Program =>
        decide (∀ node ∈ Statement.nodesOfAll program.chunk.body, node.regroups = false) := by
      decide +kernel
    rw [parsed] at plain
    exact (holds (System.keeps_ofFile ['a']) written.exitCode).2 _ program
      (Utf8.decode?_encode _) parsed (of_decide_eq_true plain) (by decide)
  · exact (@format_command_spares_files _ (.ofFile ['a']) (Utf8.encode "x=(1)+".toList)
      ⟨['a'], false, false, {}⟩ _ named rfl (by decide)).1 (by decide +kernel)

/-- Where there is no terminal, a dry run drops an escape sequence that stands in a comment, so what
is seen is not the formatted text. -/
theorem dryRun_drops_escape_sequences :
    ∃ text, formattedText? {} (Utf8.encode "-- a\x1b[0mb\n".toList) = some text ∧
      ∀ (World : Type) (system : System World) (world : World), system.IsPlain →
        system.contentOf world ['a'] = some (Utf8.encode "-- a\x1b[0mb\n".toList) →
        (Run.command system world (.format ⟨['a'], true, false, {}⟩)).output ≠ text := by
  have formatted : formattedText? {} (Utf8.encode "-- a\x1b[0mb\n".toList) =
      some "-- a\x1b[0mb\n".toList := by decide +kernel
  refine ⟨_, formatted, fun World system world plain found => ?_⟩
  exact (@dryRun_shows_visible_text _ _ _ ⟨['a'], true, false, {}⟩ _ plain (by decide) found
    (by decide) _ formatted rfl).2 (by decide)

end LuaStyle
