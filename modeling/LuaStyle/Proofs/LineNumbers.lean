/-
This file proves that positions are counted into the right lines.

A line starts at the start of the source and behind each line feed of it, so the lines that start at
or before a position are one more than the line feeds before that position. The starts come in
order, and a search among them by halving finds the same number: where a start is hit, its index is
one less than the number of its line, and where none is hit, as many starts are passed over as there
are line feeds before the position, and one. No offset counts into a line that does not exist, so a
span touches only lines that exist, also one out of order or past the end of the source.
-/

import LuaStyle.Proofs.Bytewise
import LuaStyle.Source.Lines
import Mathlib.Data.List.Basic

namespace LuaStyle

/-! ### Line feeds among bytes -/

namespace Utf8

/-- The byte of a line feed. -/
def lineFeed : UInt8 :=
  0x0A

/-- Only the line feed has the byte of a line feed in it. -/
theorem lineFeed_notMem {c : Char} (other : c ≠ '\n') : lineFeed ∉ String.utf8EncodeChar c := by
  intro member
  have within : '\n' ∈ spread [c] := by
    rw [spread, encode_cons]
    exact List.mem_map_of_mem (List.mem_append_left _ member)
  by_cases wide : IsWide c
  · exact absurd (wide_spread wide _ within) (by decide)
  · rw [spread_narrow wide] at within
    exact other (List.mem_singleton.1 within).symm

/-- How many line feeds stand at or behind the first of some bytes and before an offset. -/
theorem countP_findIdxs (bytes : List UInt8) (start length : Nat) :
    (bytes.findIdxs (· == lineFeed) start).countP (· < start + length) =
      (bytes.take length).count lineFeed := by
  induction bytes generalizing start length with
  | nil => rw [List.findIdxs_nil, List.take_nil, List.countP_nil, List.count_nil]
  | cons byte bytes inductionHypothesis =>
    cases length with
    | zero =>
      rw [List.take_zero, List.count_nil, List.countP_eq_zero]
      intro offset member
      have behind := List.ge_of_mem_findIdxs offset member
      rw [decide_eq_true_eq]
      omega
    | succ length =>
      have next := inductionHypothesis (start + 1) length
      rw [Nat.add_right_comm] at next
      rw [List.findIdxs_cons, List.take_succ_cons, List.count_cons, ← next, ← Nat.add_assoc]
      by_cases feed : byte == lineFeed
      · have first : start < start + length + 1 := by omega
        rw [if_pos feed, if_pos feed]
        exact List.countP_cons_of_pos (decide_eq_true first)
      · rw [if_neg feed, if_neg feed]
        rfl

end Utf8

namespace Line

/-! ### Where lines start -/

/-- Lines laid end to end start where they are laid from and behind each line feed. -/
theorem map_start_place (source : List Char) (start : Nat) :
    (place start (textsOf source)).map Line.start =
      start :: (Utf8.encode source).findIdxs (· == Utf8.lineFeed) (start + 1) := by
  fun_induction textsOf source generalizing start with
  | case1 => rfl
  | case2 rest inductionHypothesis =>
    rw [place, List.map_cons, inductionHypothesis]
    rfl
  | case3 c rest goesOn none => exact absurd none (textsOf_ne_nil rest)
  | case4 c rest goesOn text texts same inductionHypothesis =>
    have others : (String.utf8EncodeChar c).findIdxs (· == Utf8.lineFeed) (start + 1) = [] := by
      rw [List.findIdxs_eq_nil_iff]
      intro byte member
      exact beq_false_of_ne fun feed => Utf8.lineFeed_notMem goesOn (feed ▸ member)
    have next := inductionHypothesis (start + c.utf8Size)
    rw [same, place, List.map_cons, List.cons.injEq] at next
    rw [place, List.map_cons, byteLength, ← Nat.add_assoc, next.2, Utf8.encode_cons,
      List.findIdxs_append, others, List.nil_append, String.length_utf8EncodeChar,
      Nat.add_right_comm]

/-- The lines of a source start at its start and behind each line feed of it. -/
theorem map_start_ofText (source : List Char) :
    (ofText source).map Line.start =
      0 :: (Utf8.encode source).findIdxs (· == Utf8.lineFeed) 1 :=
  map_start_place source 0

/-- The starts of the lines come in order. -/
theorem pairwise_map_start (source : List Char) :
    ((ofText source).map Line.start).Pairwise (· < ·) := by
  rw [map_start_ofText]
  refine List.pairwise_cons.2 ⟨fun offset member => ?_, List.pairwise_findIdxs⟩
  exact Nat.lt_of_lt_of_le Nat.zero_lt_one (List.ge_of_mem_findIdxs offset member)

/-! ### The number of a line -/

theorem numberAt_eq_countP (lines : List Line) (position : Nat) :
    numberAt lines position = (lines.map Line.start).countP (· ≤ position) := by
  rw [List.countP_map]
  rfl

/-- The number of the line a position lies on is one more than the number of line feeds before
it. -/
theorem numberAt_ofText (source : List Char) (position : Nat) :
    numberAt (ofText source) position =
      1 + ((Utf8.encode source).take position).count Utf8.lineFeed := by
  have before : (fun start => decide (start < 1 + position)) = fun start => start ≤ position := by
    funext start
    exact decide_eq_decide.2 (Nat.one_add position ▸ Nat.lt_succ_iff)
  have count := Utf8.countP_findIdxs (Utf8.encode source) 1 position
  rw [before] at count
  rw [numberAt_eq_countP, map_start_ofText, Nat.add_comm, ← count]
  exact List.countP_cons_of_pos (decide_eq_true (Nat.zero_le position))

theorem numberAt_le_length (lines : List Line) (position : Nat) :
    numberAt lines position ≤ lines.length :=
  List.countP_le_length

theorem numberAt_mono (lines : List Line) {first second : Nat} (order : first ≤ second) :
    numberAt lines first ≤ numberAt lines second := by
  refine List.countP_mono_left fun line _ before => ?_
  rw [decide_eq_true_eq] at before ⊢
  exact Nat.le_trans before order

/-- What a search for an offset among offsets that come in order may answer. -/
inductive Answers (offsets : List Nat) (offset : Nat) : Except Nat Nat → Prop
  /-- The offset is among them, at an index. -/
  | hit (index : Nat) (found : offsets[index]? = some offset) : Answers offsets offset (.ok index)
  /-- The offset is not among them, and would have to be put in at an index. -/
  | miss (index : Nat) (within : index ≤ offsets.length)
      (below : ∀ other ∈ offsets.take index, other < offset)
      (above : ∀ other ∈ offsets.drop index, offset < other) :
      Answers offsets offset (.error index)

/-- A search among offsets that come in order has an answer. -/
theorem exists_answers {offsets : List Nat} (order : offsets.Pairwise (· < ·)) (offset : Nat) :
    ∃ answer, Answers offsets offset answer := by
  induction order with
  | nil => exact ⟨_, .miss 0 (Nat.le_refl 0) (List.forall_mem_nil _) (List.forall_mem_nil _)⟩
  | @cons first offsets ahead _ inductionHypothesis =>
    rcases Nat.lt_trichotomy offset first with less | rfl | more
    · have above : ∀ other ∈ first :: offsets, offset < other :=
        List.forall_mem_cons.2 ⟨less, fun other member => Nat.lt_trans less (ahead other member)⟩
      exact ⟨_, .miss 0 (Nat.zero_le _) (List.forall_mem_nil _) above⟩
    · exact ⟨_, .hit 0 rfl⟩
    · obtain ⟨answer, answers⟩ := inductionHypothesis
      cases answers with
      | hit index found => exact ⟨_, .hit (index + 1) found⟩
      | miss index within below above =>
        exact ⟨_, .miss (index + 1) (Nat.succ_le_succ within)
          (List.forall_mem_cons.2 ⟨more, below⟩) above⟩

/-- The number of the line that an answer of a search among the starts of lines stands for. -/
def numberOf : Except Nat Nat → Nat
  | .ok index => index + 1
  | .error index => index

/-- Whatever the search answers, it is the number of offsets that the one looked for has reached. -/
theorem numberOf_eq_countP {offsets : List Nat} {offset : Nat} {answer : Except Nat Nat}
    (order : offsets.Pairwise (· < ·)) (answers : Answers offsets offset answer) :
    numberOf answer = offsets.countP (· ≤ offset) := by
  -- The offsets are cut in two, those before the cut at most the offset and the others above it.
  have cut : ∀ count ≤ offsets.length, (∀ other ∈ offsets.take count, other ≤ offset) →
      (∀ other ∈ offsets.drop count, offset < other) →
        offsets.countP (· ≤ offset) = count := by
    intro count within below above
    have all : (offsets.take count).countP (· ≤ offset) = (offsets.take count).length :=
      List.countP_eq_length.2 fun other member => decide_eq_true (below other member)
    have none : (offsets.drop count).countP (· ≤ offset) = 0 :=
      List.countP_eq_zero.2 fun other member => by
        rw [decide_eq_true_eq]
        exact Nat.not_le_of_lt (above other member)
    rw [← List.take_append_drop count offsets, List.countP_append, all, none, List.length_take,
      Nat.min_eq_left within, Nat.add_zero]
  cases answers with
  | hit index found =>
    obtain ⟨within, same⟩ := List.getElem?_eq_some_iff.1 found
    refine (cut (index + 1) within ?_ ?_).symm
    · intro other member
      obtain ⟨place, inside, rfl⟩ := List.mem_take_iff_getElem.1 member
      rw [← same]
      rcases Nat.lt_or_eq_of_le (Nat.le_of_lt_succ (Nat.lt_of_lt_of_le inside (Nat.min_le_left ..)))
        with before | rfl
      · exact Nat.le_of_lt (List.pairwise_iff_getElem.1 order place index _ within before)
      · exact Nat.le_refl _
    · intro other member
      obtain ⟨place, inside, rfl⟩ := List.mem_drop_iff_getElem.1 member
      rw [← same]
      have behind : index < place + (index + 1) := by omega
      have later :=
        List.pairwise_iff_getElem.1 order index _ within (Nat.add_comm .. ▸ inside) behind
      simpa only [Nat.add_comm] using later
  | miss index within below above =>
    exact (cut index within (fun other member => Nat.le_of_lt (below other member)) above).symm

/-! ### Lines laid end to end -/

/-- The lines make up the source. -/
structure Tile (source : List Char) (lines : List Line) : Prop where
  /-- The first line starts where the source starts. -/
  starts : lines.head?.map (fun line => line.span.start) = some 0
  /-- A line starts where the one before it stops. -/
  adjoin : lines.IsChain fun first second => first.span.stop = second.span.start
  /-- The last line stops where the source stops. -/
  stops : lines.getLast?.map (fun line => line.span.stop) = some (byteLength source)
  /-- A line starts and stops between characters, and its text is what stands there. -/
  text : ∀ line ∈ lines, line.span.text? source = some line.text
  /-- A line has at most one line feed, as its last byte. -/
  feed : ∀ line ∈ lines, Utf8.lineFeed ∉ (Utf8.encode line.text).dropLast

theorem isChain_place (start : Nat) (texts : List (List Char)) :
    (place start texts).IsChain fun first second => first.span.stop = second.span.start := by
  induction texts generalizing start with
  | nil => exact .nil
  | cons text texts inductionHypothesis =>
    cases texts with
    | nil => exact .singleton _
    | cons second texts => exact .cons_cons rfl (inductionHypothesis _)

theorem getLast?_place (start : Nat) {texts : List (List Char)} (some : texts ≠ []) :
    (place start texts).getLast?.map (fun line => line.span.stop) =
      Option.some (start + byteLength texts.flatten) := by
  induction texts generalizing start with
  | nil => exact absurd rfl some
  | cons text texts inductionHypothesis =>
    cases texts with
    | nil =>
      rw [List.flatten_cons, List.flatten_nil, List.append_nil]
      rfl
    | cons second texts =>
      have rest := inductionHypothesis (start + byteLength text) (List.cons_ne_nil second texts)
      rw [List.flatten_cons, byteLength_append, ← Nat.add_assoc, ← rest]
      rfl

/-- A line stands where it is laid. -/
theorem text?_place {start : Nat} {texts : List (List Char)} :
    ∀ line ∈ place start texts, ∀ before, byteLength before = start →
      line.span.text? (before ++ texts.flatten) = some line.text := by
  induction texts generalizing start with
  | nil => exact List.forall_mem_nil _
  | cons text texts inductionHypothesis =>
    refine List.forall_mem_cons.2 ⟨?_, fun line member => ?_⟩
    · rintro before rfl
      simp only [Span.text?, span, Nat.le_add_right, if_true, splitAtByte?_byteLength,
        Option.bind_some, Nat.add_sub_cancel_left, List.flatten_cons, Option.map_some]
    · rintro before rfl
      have later := inductionHypothesis line member (before ++ text) (byteLength_append ..)
      rwa [List.append_assoc, ← List.flatten_cons] at later

/-- A line has no line feed but as its last character. -/
theorem lineFeed_notMem_dropLast (source : List Char) :
    ∀ text ∈ textsOf source, '\n' ∉ text.dropLast := by
  fun_induction textsOf source with
  | case1 => exact List.forall_mem_singleton.2 List.not_mem_nil
  | case2 rest inductionHypothesis =>
    exact List.forall_mem_cons.2 ⟨List.not_mem_nil, inductionHypothesis⟩
  | case3 c rest goesOn none => exact absurd none (textsOf_ne_nil rest)
  | case4 c rest goesOn text texts same inductionHypothesis =>
    rw [same] at inductionHypothesis
    refine List.forall_mem_cons.2 ⟨fun member => ?_, (List.forall_mem_cons.1 inductionHypothesis).2⟩
    cases text with
    | nil => cases member
    | cons d text =>
      rw [List.dropLast_cons_cons] at member
      rcases List.mem_cons.1 member with first | later
      · exact goesOn first.symm
      · exact (List.forall_mem_cons.1 inductionHypothesis).1 later

/-- What holds for the characters of a line holds for its bytes. -/
theorem lineFeed_notMem_dropLast_encode {text : List Char} (none : '\n' ∉ text.dropLast) :
    Utf8.lineFeed ∉ (Utf8.encode text).dropLast := by
  have others : ∀ front : List Char, '\n' ∉ front → Utf8.lineFeed ∉ Utf8.encode front := by
    intro front without member
    obtain ⟨c, inside, feed⟩ := List.mem_flatMap.1 member
    exact Utf8.lineFeed_notMem (fun same => without (same ▸ inside)) feed
  rcases List.eq_nil_or_concat' text with rfl | ⟨front, last, rfl⟩
  · exact List.not_mem_nil
  · rw [List.dropLast_concat] at none
    by_cases feed : last = '\n'
    · subst feed
      rw [Utf8.encode_append]
      exact List.dropLast_concat ▸ others front none
    · refine fun member =>
        others (front ++ [last]) (fun inside => ?_) (List.dropLast_subset _ member)
      rcases List.mem_append.1 inside with early | late
      · exact none early
      · exact feed (List.mem_singleton.1 late).symm

/-- The lines of a source make it up. -/
theorem tile_ofText (source : List Char) : Tile source (ofText source) where
  starts := by
    obtain ⟨text, texts, same⟩ := List.exists_cons_of_ne_nil (textsOf_ne_nil source)
    rw [ofText, same]
    rfl
  adjoin := isChain_place 0 _
  stops := by
    rw [ofText, getLast?_place 0 (textsOf_ne_nil source), flatten_textsOf, Nat.zero_add]
  text line member := by
    have stands := text?_place line member [] rfl
    rwa [flatten_textsOf] at stands
  feed line member := by
    have isText : line.text ∈ textsOf source := by
      have all : ∀ start texts, (place start texts).map Line.text = texts := by
        intro start texts
        induction texts generalizing start with
        | nil => rfl
        | cons text texts inductionHypothesis =>
          rw [place, List.map_cons, inductionHypothesis]
      rw [← all 0 (textsOf source)]
      exact List.mem_map_of_mem member
    exact lineFeed_notMem_dropLast_encode (lineFeed_notMem_dropLast source _ isText)

/-! ### Lines of spans -/

theorem one_le_firstOf (source : List Char) (span : Span) : 1 ≤ firstOf (ofText source) span := by
  rw [firstOf, numberAt_ofText]
  exact Nat.le_add_right ..

theorem firstOf_le_lastOf (lines : List Line) (span : Span) :
    firstOf lines span ≤ lastOf lines span :=
  numberAt_mono lines (Nat.le_max_right ..)

theorem lastOf_le_length (lines : List Line) (span : Span) : lastOf lines span ≤ lines.length :=
  numberAt_le_length ..

end Line

end LuaStyle
