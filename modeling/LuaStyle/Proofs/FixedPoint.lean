/-
This file proves that formatting comes to rest.

One pass may leave a chain that regroups in the layout. When a chain is hung to the left, its first
operand comes to stand on the right of the operator before it, and that operand may be a chain of
the same operator itself. So the layout of a layout need not be what formatting ends with. But each
pass whose layout is not final makes the tree lighter, and therefore there is a last one. Its number
is bounded by the weight of the tree that the source has.
-/

import LuaStyle.Proofs.Idempotence
import LuaStyle.Proofs.Weight

namespace LuaStyle

/-- What the tree of the program weighs. -/
def Program.weight (program : Program) : Nat :=
  Node.weight (Statement.nodesOfAll program.chunk.body)

/-- Trees that are alike when they are recast weigh the same. -/
theorem Statement.weight_recastAll (recasting : Recasting) (body : List Statement) :
    Node.weight (nodesOfAll (recastAll recasting body)) = Node.weight (nodesOfAll body) := by
  rw [nodesOfAll_recastAll, Node.weight_flatMap_recast]

theorem Program.weight_arrange (program : Program) :
    Node.weight (Statement.nodesOfAll program.arrange.body) = program.weight := by
  rw [weight, ← Statement.weight_recastAll .bare, program.recast_arrange,
    Statement.weight_recastAll]

/-- A pass makes the tree lighter, unless it weighs nothing. Then the layout is laid out as it
is. -/
theorem Program.format_lightens (config : Config) {source : List Char} {program : Program}
    (parsed : parse source = .ok program) :
    ∃ text again, formatText config source = .ok text ∧ parse text = .ok again ∧
      (again.weight < program.weight ∨
        program.weight = 0 ∧ formatText config text = .ok text) := by
  obtain ⟨text, read, laid, reads, same⟩ := Program.format_reads config parsed
  refine ⟨text, _, laid, Program.parse_format reads same, ?_⟩
  have lightens := Statement.lightens_surfaces program.arrange.body
  have weights := congrArg (Node.weight ∘ Statement.nodesOfAll) same
  simp only [Function.comp_apply, Statement.weight_recastAll] at weights
  have weight_le := lightens.weight_le
  rw [← weights, program.weight_arrange] at weight_le
  rw [weight, Statement.weight_recastAll]
  rcases Nat.lt_or_eq_of_le weight_le with lighter | equal
  · exact .inl lighter
  · have plain : Node.NoneRegroups (Statement.nodesOfAll program.arrange.body) := by
      refine lightens.plain ?_
      rw [← weights, equal, program.weight_arrange]
    rw [formatText, parsed] at laid
    exact .inr ⟨program.weight_arrange ▸ plain.weight_eq_zero,
      Program.formatText_layout laid reads same plain⟩

/-! ### Many passes -/

/-- What a number of passes make of a source. -/
def formatTimes (config : Config) : Nat → List Char → Except FormatError (List Char)
  | 0, source => .ok source
  | passes + 1, source =>
    match formatText config source with
    | .ok text => formatTimes config passes text
    | .error error => .error error

theorem formatTimes_succ {config : Config} {source text : List Char} (passes : Nat)
    (laid : formatText config source = .ok text) :
    formatTimes config (passes + 1) source = formatTimes config passes text := by
  rw [formatTimes, laid]

/-- No number of passes changes a text that is laid out as it is. -/
theorem formatTimes_eq_self {config : Config} {text : List Char}
    (stays : formatText config text = .ok text) (passes : Nat) :
    formatTimes config passes text = .ok text := by
  induction passes with
  | zero => rfl
  | succ passes inductionHypothesis => rw [formatTimes_succ passes stays, inductionHypothesis]

/-- When the tree weighs less than there are passes, these come to a text that is laid out as it
is. -/
theorem exists_formatTimes_eq_ok (config : Config) {passes : Nat} {source : List Char}
    {program : Program} (parsed : Program.parse source = .ok program)
    (enough : program.weight < passes) :
    ∃ text, formatTimes config passes source = .ok text ∧ formatText config text = .ok text := by
  -- the first pass makes the tree lighter, so the passes after it are enough again
  induction passes generalizing source program with
  | zero => exact absurd enough (Nat.not_lt_zero _)
  | succ passes inductionHypothesis =>
    obtain ⟨text, again, laid, read, lighter | ⟨-, stays⟩⟩ := Program.format_lightens config parsed
    · rw [formatTimes_succ passes laid]
      exact inductionHypothesis read (by omega)
    · exact ⟨text, by rw [formatTimes_succ passes laid, formatTimes_eq_self stays], stays⟩

/-- Formatting makes every tree lighter that weighs anything. So formatting a source over and over
comes to a text that is laid out as it is, after one pass more than the tree weighs at the
latest. -/
theorem format_comes_to_rest (config : Config) {source : List Char} {program : Program}
    (parsed : Program.parse source = .ok program) :
    (0 < program.weight → ∃ text again, formatText config source = .ok text ∧
      Program.parse text = .ok again ∧ again.weight < program.weight) ∧
    ∃ text, formatTimes config (program.weight + 1) source = .ok text ∧
      formatText config text = .ok text := by
  constructor
  · intro heavy
    obtain ⟨text, again, laid, read, lighter | ⟨weightless, -⟩⟩ :=
      Program.format_lightens config parsed
    · exact ⟨text, again, laid, read, lighter⟩
    · omega
  · exact exists_formatTimes_eq_ok config parsed (Nat.lt_succ_self _)

theorem format_comes_to_rest_of_nested_sums :
    ∃ program, Program.parse "_ = a + ((b + c) + d)".toList = .ok program ∧ program.weight = 2 ∧
      (∃ text again, formatText {} "_ = a + ((b + c) + d)".toList = .ok text ∧
        Program.parse text = .ok again ∧ again.weight < 2) ∧
      ∃ text, formatTimes {} 3 "_ = a + ((b + c) + d)".toList = .ok text ∧
        formatText {} text = .ok text := by
  have weighed : (Program.parse "_ = a + ((b + c) + d)".toList).toOption.map Program.weight =
      some 2 := by decide +kernel
  cases parsed : Program.parse "_ = a + ((b + c) + d)".toList with
  | error error =>
    rw [parsed] at weighed
    cases weighed
  | ok program =>
    rw [parsed] at weighed
    have weight : program.weight = 2 := Option.some.inj weighed
    have ⟨lighter, rests⟩ := format_comes_to_rest {} parsed
    rw [weight] at lighter rests
    exact ⟨program, rfl, weight, lighter (by decide), rests⟩

/-- Two passes are not enough for every source: here the third one changes the text once more. -/
theorem formatTimes_nested_sums :
    (formatTimes {} 2 "_ = a + ((b + c) + d)".toList).toOption =
        some "_ = (a + b + c) + d".toList ∧
      (formatTimes {} 3 "_ = a + ((b + c) + d)".toList).toOption =
        some "_ = ((a + b) + c) + d".toList := by
  decide +kernel

end LuaStyle
