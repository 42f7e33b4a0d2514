/-
This file fixes what a place in a source text is.

A source is a list of characters, and a place in it is a byte offset into the UTF-8 form of that
list. A span is a pair of offsets, half open: it holds the bytes from its start up to, and not
including, its stop. Offsets count bytes and not characters, so a span can fail to be a stretch of
text in two ways, by reaching past the end and by cutting a character in half. `Span.text?` is the
one place where a span is read as text, and it answers `none` in exactly those cases.
-/

namespace LuaStyle

/-! ### Byte lengths -/

/-- The number of bytes a text takes up in UTF-8. -/
def byteLength : List Char → Nat
  | [] => 0
  | c :: rest => c.utf8Size + byteLength rest

/-- A text cut at a byte offset, or `none` when the offset lies past the end or inside a
character. -/
def splitAtByte? : Nat → List Char → Option (List Char × List Char)
  | 0, text => some ([], text)
  | _ + 1, [] => none
  | offset + 1, c :: rest =>
    if c.utf8Size ≤ offset + 1 then
      (splitAtByte? (offset + 1 - c.utf8Size) rest).map fun (before, after) => (c :: before, after)
    else
      none

/-- The bytes of two texts add up. -/
theorem byteLength_append (before after : List Char) :
    byteLength (before ++ after) = byteLength before + byteLength after := by
  induction before with
  | nil => simp [byteLength]
  | cons c rest inductionHypothesis => simp [byteLength, inductionHypothesis, Nat.add_assoc]

/-- Cutting a text behind its first part gives back both parts. -/
theorem splitAtByte?_byteLength (before after : List Char) :
    splitAtByte? (byteLength before) (before ++ after) = some (before, after) := by
  induction before with
  | nil => simp [byteLength, splitAtByte?]
  | cons c rest inductionHypothesis =>
    have positive := Char.utf8Size_pos c
    obtain ⟨offset, same⟩ : ∃ offset, byteLength (c :: rest) = offset + 1 :=
      ⟨byteLength (c :: rest) - 1, by simp only [byteLength]; omega⟩
    have remaining : offset + 1 - c.utf8Size = byteLength rest := by
      rw [← same, byteLength, Nat.add_sub_cancel_left]
    have fits : c.utf8Size ≤ offset + 1 := by
      rw [← same, byteLength]
      exact Nat.le_add_right ..
    rw [same, List.cons_append, splitAtByte?, if_pos fits, remaining, inductionHypothesis]
    rfl

/-- A cut only ever takes a text apart, at the offset that was asked for. -/
theorem eq_append_of_splitAtByte? {offset : Nat} {text before after : List Char}
    (cut : splitAtByte? offset text = some (before, after)) :
    text = before ++ after ∧ byteLength before = offset := by
  fun_induction splitAtByte? offset text generalizing before with
  | case1 => simp_all [byteLength]
  | case2 => simp at cut
  | case3 offset c rest fits inductionHypothesis =>
    obtain ⟨⟨first, last⟩, cutRest, same⟩ := Option.map_eq_some_iff.1 cut
    cases same
    obtain ⟨rfl, length⟩ := inductionHypothesis cutRest
    exact ⟨rfl, by rw [byteLength, length]; omega⟩
  | case4 => simp at cut

/-! ### Spans -/

/-- A half-open range of byte offsets. Nothing forces `start` to come first, or either offset to lie
within a source: the functions below say what becomes of a span that does not fit. -/
structure Span where
  /-- The offset of the first byte. -/
  start : Nat
  /-- The offset behind the last byte. -/
  stop : Nat
deriving DecidableEq, Inhabited, Repr

namespace Span

/-- The least span that covers both spans, and so all that lies between them. -/
def merge (first second : Span) : Span :=
  ⟨min first.start second.start, max first.stop second.stop⟩

/-- The outer span holds the inner one, where touching an end from inside counts as being held. -/
def Contains (outer inner : Span) : Prop :=
  outer.start ≤ inner.start ∧ inner.stop ≤ outer.stop

instance (outer inner : Span) : Decidable (outer.Contains inner) :=
  inferInstanceAs (Decidable (_ ∧ _))

/-- The stretch of the source that the span covers. It is `none` unless both offsets lie within the
source, in order, and between characters. -/
def text? (source : List Char) (span : Span) : Option (List Char) :=
  if span.start ≤ span.stop then
    (splitAtByte? span.start source).bind fun (_, after) =>
      (splitAtByte? (span.stop - span.start) after).map Prod.fst
  else
    none

end Span

end LuaStyle
