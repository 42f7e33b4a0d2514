/-
This file proves that source shown in colours is the source.

What is shown is cut out of the source at the ends of its tokens, and these lie between characters.
So every cut succeeds, and the pieces, put together again, are the source as far as its last token;
behind that there are only spaces. A colour is something in front of a piece and something behind
it, whatever the palette has for it.
-/

import LuaStyle.Proofs.ErrorSpans
import LuaStyle.Report.Highlight

namespace LuaStyle

/-! ### Colours -/

/-- The parts are the pieces in order, and around some of them there is what the palette has for a
style: something in front and something behind. -/
inductive Coloured (palette : Palette) : List (List Char) → Parts → Prop
  | nil : Coloured palette [] []
  | bare {piece pieces parts} :
    Coloured palette pieces parts → Coloured palette (piece :: pieces) (piece :: parts)
  | painted (style : Style) {piece pieces parts} : Coloured palette pieces parts →
      Coloured palette (piece :: pieces)
        (palette.before style ++ piece :: (palette.after style ++ parts))

/-- The parts are the text in colours. -/
def Tells (palette : Palette) (parts : Parts) (text : List Char) : Prop :=
  ∃ pieces, Coloured palette pieces parts ∧ pieces.flatten = text

section

variable {palette : Palette} {pieces morePieces : List (List Char)} {parts more : Parts}
  {text further : List Char}

theorem Coloured.append (first : Coloured palette pieces parts)
    (second : Coloured palette morePieces more) :
    Coloured palette (pieces ++ morePieces) (parts ++ more) := by
  induction first with
  | nil => exact second
  | bare _ inductionHypothesis => exact .bare inductionHypothesis
  | painted style _ inductionHypothesis =>
    rw [List.append_assoc, List.cons_append, List.cons_append, List.append_assoc]
    exact .painted style inductionHypothesis

/-- Painting a piece puts it between what the palette has for the style. -/
theorem Coloured.paint (palette : Palette) (style : Style) (piece : List Char) :
    Coloured palette [piece] (palette.paint style piece) := by
  have painted : Coloured palette [piece]
      (palette.before style ++ piece :: (palette.after style ++ [])) := .painted style .nil
  rw [List.append_nil] at painted
  rw [Palette.paint, List.append_assoc]
  exact painted

/-- Parts that are not painted are pieces. -/
theorem Coloured.unpainted (palette : Palette) (parts : Parts) : Coloured palette parts parts := by
  induction parts with
  | nil => exact .nil
  | cons part parts inductionHypothesis => exact .bare inductionHypothesis

theorem Tells.append (first : Tells palette parts text) (second : Tells palette more further) :
    Tells palette (parts ++ more) (text ++ further) := by
  obtain ⟨pieces, coloured, rfl⟩ := first
  obtain ⟨others, alsoColoured, rfl⟩ := second
  exact ⟨_, coloured.append alsoColoured, List.flatten_append⟩

theorem tells_paint (palette : Palette) (style : Style) (text : List Char) :
    Tells palette (palette.paint style text) text :=
  ⟨[text], .paint palette style text, List.flatten_singleton⟩

theorem tells_unpainted (palette : Palette) (parts : Parts) : Tells palette parts parts.flatten :=
  ⟨parts, .unpainted palette parts, rfl⟩

end

namespace Highlight

/-! ### Cutting a source -/

/-- The slices can be cut out of the source, and the pieces are what they hold. -/
def CutsOut (source : List Char) (slices : List (Option Style × Span)) (pieces : List (List Char)) :
    Prop :=
  slices.map (fun slice => slice.2.text? source) = pieces.map some

theorem CutsOut.cons {source piece : List Char} {style : Option Style} {span : Span}
    {slices : List (Option Style × Span)} {pieces : List (List Char)}
    (first : span.text? source = some piece) (others : CutsOut source slices pieces) :
    CutsOut source ((style, span) :: slices) (piece :: pieces) :=
  congr (congrArg List.cons first) others

/-- A slice that can be cut out lies within the source, and does not cut a character in half. -/
theorem CutsOut.isBoundary {source : List Char} {slices : List (Option Style × Span)}
    {pieces : List (List Char)} (cut : CutsOut source slices pieces) :
    ∀ slice ∈ slices, slice.2.start ≤ slice.2.stop ∧ slice.2.stop ≤ byteLength source ∧
      IsBoundary source slice.2.start ∧ IsBoundary source slice.2.stop := by
  intro slice member
  have found : slice.2.text? source ∈ pieces.map some := cut ▸ List.mem_map_of_mem member
  obtain ⟨piece, -, same⟩ := List.mem_map.1 found
  obtain ⟨ordered, starts, stops⟩ := Span.isSome_text?_iff.1 (same ▸ Option.isSome_some)
  exact ⟨ordered, stops.le, starts, stops⟩

/-- Where a text has been shown and a gap comes before the next token, the slices that follow hold
the gap and the text behind it, up to spaces at the end. -/
theorem exists_pieces_slicesFrom {offset : Nat} {text : List Char} (shown gap : List Char)
    (start : offset = byteLength (shown ++ gap)) (blank : ∀ c ∈ gap, Token.isSpace c) :
    ∃ pieces rest,
      CutsOut (shown ++ (gap ++ text))
        (slicesFrom (byteLength shown) (Token.tokensFrom offset text)) pieces ∧
      pieces.flatten ++ rest = gap ++ text ∧ ∀ c ∈ rest, Token.isSpace c := by
  fun_induction Token.tokensFrom offset text generalizing shown gap with
  | case1 => exact ⟨[], gap, rfl, (List.append_nil gap).symm, blank⟩
  | case2 offset c rest space inductionHypothesis =>
    -- a space makes the gap longer
    have longer : offset + c.utf8Size = byteLength (shown ++ (gap ++ [c])) := by
      rw [start, ← List.append_assoc, byteLength_append (shown ++ gap)]
      rfl
    have found := inductionHypothesis shown (gap ++ [c]) longer
      (List.forall_mem_append.2 ⟨blank, List.forall_mem_singleton.2 space⟩)
    rwa [List.append_assoc gap] at found
  | case3 offset c rest solid kind count shaped token inductionHypothesis =>
    have split : c :: rest = token.text ++ rest.drop count :=
      congrArg (c :: ·) (List.take_append_drop count rest).symm
    have ends : token.stop = byteLength (shown ++ gap ++ token.text) := by
      rw [byteLength_append, ← start]
      rfl
    obtain ⟨pieces, spaces, cut, whole, spacesOnly⟩ :=
      inductionHypothesis (shown ++ gap ++ token.text) []
        (ends.trans (congrArg byteLength (List.append_nil _).symm)) (List.forall_mem_nil _)
    rw [← ends, List.nil_append] at cut
    have inside : token.span.text? (shown ++ gap ++ (token.text ++ rest.drop count)) =
        some token.text := by
      have between := Span.text?_between (shown ++ gap) token.text (rest.drop count)
      rwa [← start, ← ends] at between
    rw [List.append_assoc (shown ++ gap)] at cut
    have others : CutsOut _ ((some (.ofKind token.kind), token.span) :: _) _ := .cons inside cut
    rw [List.append_assoc shown] at others
    rw [split, slicesFrom]
    split_ifs with adjoins
    · -- the token starts where the last slice ended
      have none : gap = [] := byteLength_eq_zero (by
        have same : offset = byteLength shown := adjoins
        rw [start, byteLength_append] at same
        omega)
      subst none
      refine ⟨token.text :: pieces, spaces, others, ?_, spacesOnly⟩
      rw [List.flatten_cons, List.append_assoc, whole, List.nil_append, List.nil_append]
    · have between := Span.text?_between shown gap (token.text ++ rest.drop count)
      rw [← start] at between
      refine ⟨gap :: token.text :: pieces, spaces, .cons between others, ?_, spacesOnly⟩
      rw [List.flatten_cons, List.flatten_cons, List.append_assoc, List.append_assoc, whole,
        List.nil_append]

/-- The slices of a source hold the source up to spaces at the end. -/
theorem exists_pieces_slices (source : List Char) :
    ∃ pieces rest, CutsOut source (slices source) pieces ∧ pieces.flatten ++ rest = source ∧
      ∀ c ∈ rest, Token.isSpace c :=
  exists_pieces_slicesFrom [] [] rfl (List.forall_mem_nil _)

theorem coloured_shown (palette : Palette) (style : Option Style) (piece : List Char) :
    Coloured palette [piece] (shown palette style piece) := by
  cases style with
  | none => exact .unpainted palette [piece]
  | some style => exact .paint palette style piece

/-- What is shown are the pieces in colours. -/
theorem CutsOut.coloured {source : List Char} {slices : List (Option Style × Span)}
    {pieces : List (List Char)} (cut : CutsOut source slices pieces) (palette : Palette) :
    Coloured palette pieces
      (slices.flatMap fun slice => shown palette slice.1 ((slice.2.text? source).getD [])) := by
  induction slices generalizing pieces with
  | nil =>
    rw [List.map_eq_nil_iff.1 cut.symm]
    exact .nil
  | cons slice slices inductionHypothesis =>
    obtain ⟨piece, pieces, rfl, first, others⟩ := List.map_eq_cons_iff.1 cut.symm
    have found : slice.2.text? source = some piece := first.symm
    rw [List.flatMap_cons, found, Option.getD_some]
    exact (coloured_shown palette slice.1 piece).append (inductionHypothesis others.symm)

/-- A source is shown in colours, up to spaces at its end. -/
theorem exists_tells (palette : Palette) (source : List Char) :
    ∃ shown rest, Tells palette (parts palette source) shown ∧ shown ++ rest = source ∧
      ∀ c ∈ rest, Token.isSpace c := by
  obtain ⟨pieces, rest, cut, whole, spacesOnly⟩ := exists_pieces_slices source
  exact ⟨_, rest, ⟨pieces, cut.coloured palette, rfl⟩, whole, spacesOnly⟩

end Highlight

end LuaStyle
