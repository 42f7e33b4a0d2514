/-
This file proves that the outline of a program shows how its entries are nested.

A row has a column for each entry it lies below, which is blank exactly if that entry is drawn as
the last one; and an entry below another is drawn as the last one exactly if no other one follows it
there. Labels do not break their lines. So the outline is read line by line: the columns in front of
a connector tell how deep an entry lies, and what stands behind the connector is its label.
-/

import LuaStyle.Proofs.Labels
import LuaStyle.Source.Lines

namespace LuaStyle

/-! ### Columns and connectors -/

/-- In front of the rows behind it, the row stands as it should. -/
structure Row.Stands (row : Row) (after : List Row) : Prop where
  /-- The entries below it, which are the deeper ones up to the first that is not, go on with its
  columns and with one of its own. -/
  columns : ∀ inner ∈ after.takeWhile (row.depth < ·.depth),
    row.columns ++ [row.isFinal] <+: inner.columns
  /-- It is drawn as a last one exactly if it lies below another entry and no further one follows
  there, behind those below it. -/
  final : row.isFinal ↔
    0 < row.depth ∧ ∀ next ∈ (after.dropWhile (row.depth < ·.depth)).head?, next.depth < row.depth

/-- Each of the rows stands as it should in front of those behind it. -/
def Row.AllStand (rows : List Row) : Prop :=
  ∀ row after, row :: after <:+ rows → row.Stands after

namespace Row

/-- How deep the entry lies, and its label. -/
def place (row : Row) : Nat × List Char :=
  (row.depth, row.label)

theorem allStand_nil : AllStand [] := by
  intro row after suffix
  cases List.suffix_nil.1 suffix

theorem AllStand.cons {row : Row} {rows : List Row} (stands : row.Stands rows)
    (others : AllStand rows) : AllStand (row :: rows) := by
  intro each after suffix
  rcases List.suffix_cons_iff.1 suffix with same | further
  · cases same
    exact stands
  · exact others each after further

/-- A row stands as it should in front of rows below it and others that go no deeper. -/
theorem Stands.of_append {row : Row} {below after : List Row}
    (inside : ∀ inner ∈ below, row.columns ++ [row.isFinal] <+: inner.columns)
    (noDeeper : ∀ next ∈ after.head?, next.depth ≤ row.depth)
    (last : row.isFinal ↔ 0 < row.depth ∧ ∀ next ∈ after.head?, next.depth < row.depth) :
    row.Stands (below ++ after) := by
  have passes : ∀ inner ∈ below, decide (row.depth < inner.depth) = true := by
    intro inner member
    have length := (inside inner member).length_le
    rw [List.length_append, List.length_singleton] at length
    exact decide_eq_true length
  have stops : ∀ next ∈ after.head?, decide (row.depth < next.depth) = false := fun next head =>
    decide_eq_false (Nat.not_lt.2 (noDeeper next head))
  constructor
  · rw [takeWhile_append_eq passes stops]
    exact inside
  · rw [dropWhile_append_eq passes stops]
    exact last

end Row

namespace Entry

mutual

theorem prefix_of_mem_rows : ∀ (entry : Entry) (columns : List Bool) (isLast : Bool),
    ∀ row ∈ entry.rows columns isLast, columns <+: row.columns
  | node label below, columns, isLast => by
    refine List.forall_mem_cons.2 ⟨List.prefix_rfl, fun row member => ?_⟩
    exact (List.prefix_append columns [isLast]).trans (prefix_of_mem_rowsOfAll below _ row member)

theorem prefix_of_mem_rowsOfAll : ∀ (entries : List Entry) (columns : List Bool),
    ∀ row ∈ rowsOfAll columns entries, columns <+: row.columns
  | [], _ => List.forall_mem_nil _
  | entry :: rest, columns => List.forall_mem_append.2
    ⟨prefix_of_mem_rows entry columns _, prefix_of_mem_rowsOfAll rest columns⟩

end

theorem head?_rowsOfAll_append {columns : List Bool} (entry : Entry) (rest : List Entry)
    (after : List Row) :
    ∀ next ∈ (rowsOfAll columns (entry :: rest) ++ after).head?, next.depth = columns.length := by
  obtain ⟨label, below⟩ := entry
  intro next head
  cases head
  rfl

mutual

/-- An entry stands as it should in front of rows that go no deeper, if it is drawn as a last one
exactly when it is one. -/
theorem allStand_rows : ∀ (entry : Entry) {columns : List Bool} {isLast : Bool} {after : List Row},
    Row.AllStand after → (∀ next ∈ after.head?, next.depth ≤ columns.length) →
    (isLast ↔ 0 < columns.length ∧ ∀ next ∈ after.head?, next.depth < columns.length) →
      Row.AllStand (entry.rows columns isLast ++ after)
  | node label below, columns, isLast, after, stand, noDeeper, last => by
    refine .cons (.of_append (prefix_of_mem_rowsOfAll below _) noDeeper last) ?_
    refine allStand_rowsOfAll below ?_ stand fun next head => ?_
    · rw [List.length_append]
      exact Nat.succ_pos _
    · rw [List.length_append]
      exact Nat.lt_succ_of_le (noDeeper next head)

theorem allStand_rowsOfAll : ∀ (entries : List Entry) {columns : List Bool} {after : List Row},
    0 < columns.length → Row.AllStand after → (∀ next ∈ after.head?, next.depth < columns.length) →
      Row.AllStand (rowsOfAll columns entries ++ after)
  | [], _, _, _, stand, _ => stand
  | entry :: rest, columns, after, inside, stand, shallower => by
    have others := allStand_rowsOfAll rest inside stand shallower
    rw [rowsOfAll, List.append_assoc]
    cases rest with
    | nil =>
      exact allStand_rows entry others (fun next head => Nat.le_of_lt (shallower next head))
        (iff_of_true rfl ⟨inside, shallower⟩)
    | cons second rest =>
      have level := @head?_rowsOfAll_append columns second rest after
      refine allStand_rows entry others (fun next head => Nat.le_of_eq (level next head))
        (iff_of_false Bool.false_ne_true fun both => ?_)
      obtain ⟨label, below⟩ := second
      exact Nat.lt_irrefl _ (both.2 _ rfl)

end

theorem allStand_rowsAtTop (entries : List Entry) : Row.AllStand (rowsAtTop entries) := by
  induction entries with
  | nil => exact Row.allStand_nil
  | cons entry rest inductionHypothesis =>
    refine allStand_rows entry inductionHypothesis (fun next head => ?_)
      (iff_of_false Bool.false_ne_true fun both => Nat.lt_irrefl _ both.1)
    cases rest with
    | nil => cases head
    | cons second rest =>
      obtain ⟨label, below⟩ := second
      cases head
      exact Nat.le_refl _

/-! ### Entries in preorder -/

mutual

theorem map_place_rows : ∀ (entry : Entry) (columns : List Bool) (isLast : Bool),
    (entry.rows columns isLast).map Row.place = entry.preorder columns.length
  | node label below, columns, isLast => by
    have others := map_place_rowsOfAll below (columns ++ [isLast])
    rw [List.length_append, List.length_singleton] at others
    rw [rows, List.map_cons, others, preorder]
    rfl

theorem map_place_rowsOfAll : ∀ (entries : List Entry) (columns : List Bool),
    (rowsOfAll columns entries).map Row.place = preorderOfAll columns.length entries
  | [], _ => rfl
  | entry :: rest, columns => by
    rw [rowsOfAll, List.map_append, map_place_rows entry, map_place_rowsOfAll rest, preorderOfAll]

end

theorem map_place_rowsAtTop (entries : List Entry) :
    (rowsAtTop entries).map Row.place = preorderOfAll 0 entries := by
  induction entries with
  | nil => rfl
  | cons entry rest inductionHypothesis =>
    rw [rowsAtTop, List.flatMap_cons, List.map_append, map_place_rows entry, preorderOfAll,
      ← inductionHypothesis]
    rfl

mutual

theorem isShown_of_mem_rows : ∀ (entry : Entry) (columns : List Bool) (isLast : Bool),
    entry.IsLegible → ∀ row ∈ entry.rows columns isLast, IsShown row.label
  | node label below, columns, isLast, legible => by
    cases legible with
    | node shown others =>
      exact List.forall_mem_cons.2 ⟨shown, isShown_of_mem_rowsOfAll below _ others⟩

theorem isShown_of_mem_rowsOfAll : ∀ (entries : List Entry) (columns : List Bool),
    (∀ entry ∈ entries, entry.IsLegible) → ∀ row ∈ rowsOfAll columns entries, IsShown row.label
  | [], _, _ => List.forall_mem_nil _
  | entry :: rest, columns, legible => by
    obtain ⟨first, others⟩ := List.forall_mem_cons.1 legible
    exact List.forall_mem_append.2
      ⟨isShown_of_mem_rows entry columns _ first, isShown_of_mem_rowsOfAll rest columns others⟩

end

theorem isShown_of_mem_rowsAtTop {entries : List Entry}
    (legible : ∀ entry ∈ entries, entry.IsLegible) :
    ∀ row ∈ rowsAtTop entries, IsShown row.label := by
  intro row member
  obtain ⟨entry, inside, member⟩ := List.mem_flatMap.1 member
  exact isShown_of_mem_rows entry [] false (legible entry inside) row member

end Entry

/-! ### Reading an outline -/

namespace Outline

/-- How deep the entry of a line lies, and its label. Columns take up three characters each, and so
does the connector, of which the first one tells it from a column. -/
def readLine : List Char → Nat × List Char
  | first :: _ :: _ :: rest =>
    if first = '├' ∨ first = '╰' then (0, rest)
    else ((readLine rest).1 + 1, (readLine rest).2)
  | _ => (0, [])

/-- The depths and labels that are read from an outline, one for each line. -/
def readBack (text : List Char) : List (Nat × List Char) :=
  (Line.textsOf text).dropLast.map fun line => readLine line.dropLast

theorem readLine_connector (isLast : Bool) (label : List Char) :
    readLine (Row.connector isLast ++ label) = (0, label) := by
  cases isLast <;> rfl

theorem readLine_column (isLast : Bool) (rest : List Char) :
    readLine (Row.column isLast ++ rest) = ((readLine rest).1 + 1, (readLine rest).2) := by
  cases isLast <;> rfl

/-- A line is read back. -/
theorem readLine_front (columns : List Bool) (isLast : Bool) (label : List Char) :
    readLine (Row.front columns ++ (Row.connector isLast ++ label)) = (columns.length, label) := by
  induction columns with
  | nil => exact readLine_connector isLast label
  | cons first rest inductionHypothesis =>
    rw [Row.front, List.flatMap_cons, List.append_assoc, readLine_column]
    rw [Row.front] at inductionHypothesis
    rw [inductionHypothesis]
    rfl

end Outline

theorem Line.textsOf_append {front : List Char} (noFeed : '\n' ∉ front) (rest : List Char) :
    textsOf (front ++ '\n' :: rest) = (front ++ ['\n']) :: textsOf rest := by
  induction front with
  | nil => rw [List.nil_append, textsOf, if_pos rfl, List.nil_append]
  | cons c front inductionHypothesis =>
    obtain ⟨other, further⟩ := not_or.1 fun either => noFeed (List.mem_cons.2 either)
    rw [List.cons_append, textsOf, if_neg fun same => other same.symm, inductionHypothesis further]
    rfl

namespace Row

theorem noFeed_front (columns : List Bool) : '\n' ∉ front columns := by
  refine fun member => ?_
  obtain ⟨isLast, -, inside⟩ := List.mem_flatMap.1 member
  cases isLast <;> exact absurd inside (by decide)

/-- The line of a row but for its line feed. -/
def strip (row : Row) : List Char :=
  front row.columns ++ (connector row.isFinal ++ row.label)

theorem line_eq (row : Row) : row.line = row.strip ++ ['\n'] := by
  rw [line, strip, List.append_assoc (front row.columns)]

theorem noFeed_strip {row : Row} (shown : '\n' ∉ row.label) : '\n' ∉ row.strip := by
  refine List.not_mem_append (noFeed_front row.columns) (List.not_mem_append ?_ shown)
  cases row.isFinal <;> decide

/-- The text of rows falls into their lines if no label breaks its line. -/
theorem textsOf_text {rows : List Row} (shown : ∀ row ∈ rows, '\n' ∉ row.label) :
    Line.textsOf (text rows) = rows.map line ++ [[]] := by
  induction rows with
  | nil => rfl
  | cons row rows inductionHypothesis =>
    obtain ⟨first, others⟩ := List.forall_mem_cons.1 shown
    rw [text, List.flatMap_cons, line_eq, List.append_assoc, List.singleton_append,
      Line.textsOf_append (noFeed_strip first), ← line_eq, List.map_cons, List.cons_append]
    exact congrArg _ (inductionHypothesis others)

/-- Rows whose labels do not break their lines are read back. -/
theorem readBack_text {rows : List Row} (shown : ∀ row ∈ rows, '\n' ∉ row.label) :
    Outline.readBack (text rows) = rows.map place := by
  rw [Outline.readBack, textsOf_text shown, List.dropLast_concat, List.map_map]
  refine List.map_congr_left fun row _ => ?_
  rw [Function.comp_apply, line_eq, List.dropLast_concat, strip, Outline.readLine_front]
  rfl

example : Outline.readBack "├─ Do\n│  ╰─ Break\n├─ Break\n".toList =
    [(0, "Do".toList), (1, "Break".toList), (0, "Break".toList)] := by
  decide

end Row

/-! ### The outline of a program -/

theorem IsShown.noLineBreak {text : List Char} (shown : IsShown text) :
    ∀ c ∈ text, Token.isLineBreak c = false := by
  refine fun c member => Bool.eq_false_iff.2 fun breaks => ?_
  rw [Token.isLineBreak, Bool.or_eq_true, beq_iff_eq, beq_iff_eq] at breaks
  rcases breaks with rfl | rfl
  · exact absurd (shown _ member) (by decide +kernel)
  · exact absurd (shown _ member) (by decide +kernel)

/-- The text draws the entries as an outline, and shows how they are nested. -/
structure IsOutline (text : List Char) (entries : List Entry) : Prop where
  /-- The text is one line for each entry, in preorder. In front of the label, which does not break
  the line, there are the columns of the entries above, and the connector. -/
  drawn : ∃ rows : List Row, text = Row.text rows ∧
    rows.map Row.place = Entry.preorderOfAll 0 entries ∧ Row.AllStand rows ∧
    ∀ row ∈ rows, IsShown row.label ∧ ∀ c ∈ row.label, Token.isLineBreak c = false
  /-- How deep the entries lie, and their labels, are read back from the text. -/
  readBack : Outline.readBack text = Entry.preorderOfAll 0 entries

theorem IsOutline.of_legible {entries : List Entry}
    (legible : ∀ entry ∈ entries, entry.IsLegible) :
    IsOutline (Row.text (Entry.rowsAtTop entries)) entries := by
  have shown := Entry.isShown_of_mem_rowsAtTop legible
  constructor
  · refine ⟨_, rfl, Entry.map_place_rowsAtTop entries, Entry.allStand_rowsAtTop entries, ?_⟩
    exact fun row member => ⟨shown row member, (shown row member).noLineBreak⟩
  · rw [Row.readBack_text, Entry.map_place_rowsAtTop]
    intro row member feed
    cases (shown row member).noLineBreak _ feed

/-- The outline of a grammatical chunk, alone and with comments behind it. -/
theorem Chunk.isOutline {chunk : Chunk}
    (grammatical : Node.AreGrammatical (Statement.nodesOfAll chunk.body)) :
    IsOutline chunk.display (Statement.entries chunk.body) ∧ ∀ comments,
      IsOutline (Program.display ⟨chunk, comments⟩) (Program.entries ⟨chunk, comments⟩) := by
  have legible := Statement.areLegible chunk.body grammatical
  refine ⟨chunk.display_eq ▸ .of_legible legible, fun comments => ?_⟩
  rw [Program.display_eq]
  refine .of_legible (List.forall_mem_append.2 ⟨legible, ?_⟩)
  exact List.forall_mem_map.2 fun comment _ => comment.isLegible

theorem Chunk.grammatical_extendClauses {chunk : Chunk}
    (grammatical : Node.AreGrammatical (Statement.nodesOfAll chunk.body)) :
    Node.AreGrammatical (Statement.nodesOfAll chunk.extendClauses.body) := by
  have bare := Node.isGrammatical_recast .bare fun _ => rfl
  have same : Statement.recastAll .bare chunk.extendClauses.body =
      Statement.recastAll .bare chunk.body := Statement.recastAll_extendAll .bare chunk.body
  rw [Node.AreGrammatical, ← Statement.forall_nodes_recastAll bare, same]
  exact (Statement.forall_nodes_recastAll bare _).2 grammatical

/-- The outline of a program that was read shows how its entries are nested: as it was read, with
its clauses reaching their ends, and with the comments among its statements. -/
theorem outline_shows_nesting {source : List Char} {program : Program}
    (parsed : Program.parse source = .ok program) :
    ∀ chunk ∈ [program.chunk, program.chunk.extendClauses, program.arrange],
      IsOutline chunk.display (Statement.entries chunk.body) ∧ ∀ comments,
        IsOutline (Program.display ⟨chunk, comments⟩) (Program.entries ⟨chunk, comments⟩) := by
  obtain ⟨grammatical, isBlock⟩ := Program.grammatical_of_parse parsed
  refine List.forall_mem_cons.2 ⟨Chunk.isOutline grammatical, ?_⟩
  refine List.forall_mem_cons.2 ⟨Chunk.isOutline (Chunk.grammatical_extendClauses grammatical), ?_⟩
  obtain ⟨arranged, -⟩ := Program.grammatical_arrange grammatical isBlock
  exact List.forall_mem_singleton.2 (Chunk.isOutline arranged)

/-- A loop without a step, a string over two lines and a comment. -/
theorem outline_shows_nesting_of_loop :
    ∃ program, Program.parse "for i = 1, 2 do print [[a\nb]] end -- c".toList = .ok program ∧
      ∀ chunk ∈ [program.chunk, program.chunk.extendClauses, program.arrange],
        IsOutline chunk.display (Statement.entries chunk.body) ∧ ∀ comments,
          IsOutline (Program.display ⟨chunk, comments⟩) (Program.entries ⟨chunk, comments⟩) := by
  have isOk : (Program.parse "for i = 1, 2 do print [[a\nb]] end -- c".toList).isOk := by
    decide +kernel
  obtain ⟨program, parsed⟩ := Program.exists_of_isOk isOk
  exact ⟨program, parsed, outline_shows_nesting parsed⟩

end LuaStyle
