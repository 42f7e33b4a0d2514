/-
This file proves that the space between tokens does not matter for what becomes of a source.

Two sources with the same tokens cannot be compared place by place: where two tokens touch in one of
them, they share a place that belongs to two places in the other. So both are compared with the same
tokens set apart from each other, each starting one byte behind the one in front of it. From there,
the ends of tokens can be moved to where they are in either source, and as they stay in order, all
other offsets can be moved along with them.

The comparison does not need the texts of strings and comments to be the same. A string may be
spelled otherwise as long as it has the same bytes, and a comment as long as it has the same lines.
-/

import LuaStyle.Proofs.Idempotence
import LuaStyle.Proofs.Rearrangement
import LuaStyle.Proofs.Transcribed

namespace LuaStyle

/-! ### Places in order -/

namespace Transcription

/-- The last of the places that are given for the offset and for offsets in front of it. -/
def placeAmong : List (Nat × Nat) → Nat → Nat
  | [], _ => 0
  | (point, image) :: rest, offset =>
    if point ≤ offset then max image (placeAmong rest offset) else placeAmong rest offset

theorem monotone_placeAmong (points : List (Nat × Nat)) : Monotone (placeAmong points) := by
  intro first second le
  induction points with
  | nil => exact Nat.le_refl _
  | cons point rest inductionHypothesis =>
    rw [placeAmong, placeAmong]
    split <;> split <;> omega

theorem placeAmong_eq_zero {points : List (Nat × Nat)} {offset : Nat}
    (behind : ∀ point ∈ points, offset < point.1) : placeAmong points offset = 0 := by
  induction points with
  | nil => rfl
  | cons point rest inductionHypothesis =>
    obtain ⟨first, others⟩ := List.forall_mem_cons.1 behind
    rw [placeAmong, if_neg (Nat.not_le.2 first), inductionHypothesis others]

/-- Offsets whose places are in order get these places. -/
theorem placeAmong_of_mem {points : List (Nat × Nat)}
    (rising : points.Pairwise fun first second => first.1 < second.1 ∧ first.2 ≤ second.2)
    {point image : Nat} (member : (point, image) ∈ points) : placeAmong points point = image := by
  induction points with
  | nil => cases member
  | cons first rest inductionHypothesis =>
    obtain ⟨rises, risingRest⟩ := List.pairwise_cons.1 rising
    rw [placeAmong]
    rcases List.mem_cons.1 member with rfl | among
    · have none : placeAmong rest point = 0 :=
        placeAmong_eq_zero fun other isOther => (rises other isOther).1
      rw [if_pos (Nat.le_refl _), none, Nat.max_zero]
    · obtain ⟨before, below⟩ := rises _ among
      rw [if_pos (Nat.le_of_lt before), inductionHypothesis risingRest among,
        Nat.max_eq_right below]

theorem pairwise_zip {points images : List Nat} (rises : points.Pairwise (· < ·))
    (follows : images.Pairwise (· ≤ ·)) :
    (points.zip images).Pairwise fun first second => first.1 < second.1 ∧ first.2 ≤ second.2 := by
  induction points generalizing images with
  | nil => exact .nil
  | cons point points inductionHypothesis =>
    cases images with
    | nil => exact .nil
    | cons image images =>
      obtain ⟨firstRises, restRises⟩ := List.pairwise_cons.1 rises
      obtain ⟨firstFollows, restFollows⟩ := List.pairwise_cons.1 follows
      refine List.pairwise_cons.2 ⟨fun pair member => ?_, inductionHypothesis restRises restFollows⟩
      obtain ⟨isPoint, isImage⟩ := List.of_mem_zip member
      exact ⟨firstRises _ isPoint, firstFollows _ isImage⟩

end Transcription

/-! ### Tokens set apart -/

namespace Token

/-- The offsets at which the tokens and the source end. -/
def ends (length : Nat) : List Token → List Nat
  | [] => [length]
  | token :: rest => token.start :: token.stop :: ends length rest

/-- The tokens set apart: each starts one byte behind the one in front of it. -/
def spaced (last : Nat) : List Token → List Token
  | [] => []
  | token :: rest => ⟨token.kind, token.text, last + 1⟩ :: spaced (last + 1 + token.length) rest

/-- The length of a source that holds the tokens set apart. -/
def spacedLength (last : Nat) : List Token → Nat
  | [] => last + 1
  | token :: rest => spacedLength (last + 1 + token.length) rest

variable {tokens copies : List Token} {length copyLength : Nat}

theorem mem_ends {offset : Nat} (member : offset ∈ ends length tokens) :
    offset = length ∨ ∃ token ∈ tokens, offset = token.start ∨ offset = token.stop := by
  induction tokens with
  | nil => exact .inl (List.mem_singleton.1 member)
  | cons token rest inductionHypothesis =>
    rw [ends, List.mem_cons, List.mem_cons] at member
    rcases member with starts | stops | others
    · exact .inr ⟨token, List.mem_cons_self, .inl starts⟩
    · exact .inr ⟨token, List.mem_cons_self, .inr stops⟩
    · rcases inductionHypothesis others with same | ⟨other, isOther, same⟩
      · exact .inl same
      · exact .inr ⟨other, List.mem_cons_of_mem _ isOther, same⟩

/-- The ends of tokens that lie one behind the other are in order. -/
theorem Ordered.pairwise_ends (ordered : Ordered tokens)
    (within : ∀ token ∈ tokens, token.stop ≤ length) :
    (ends length tokens).Pairwise (· ≤ ·) := by
  induction tokens with
  | nil => exact List.pairwise_singleton ..
  | cons token rest inductionHypothesis =>
    obtain ⟨withinFirst, withinRest⟩ := List.forall_mem_cons.1 within
    have width := Nat.le_of_lt (ordered.nonempty token List.mem_cons_self)
    have behind : ∀ offset ∈ ends length rest, token.stop ≤ offset := by
      intro offset member
      rcases mem_ends member with rfl | ⟨other, isOther, same⟩
      · exact withinFirst
      · have apart := (List.pairwise_cons.1 ordered.pairwise).1 other isOther
        have otherWidth := ordered.nonempty other (List.mem_cons_of_mem _ isOther)
        omega
    refine List.pairwise_cons.2 ⟨List.forall_mem_cons.2 ⟨width, fun offset member => ?_⟩,
      List.pairwise_cons.2 ⟨behind, inductionHypothesis ordered.tail withinRest⟩⟩
    exact Nat.le_trans width (behind offset member)

/-- The ends of tokens set apart are all different and in order. -/
theorem pairwise_ends_spaced (nonempty : ∀ token ∈ tokens, 0 < token.length) (last : Nat) :
    (ends (spacedLength last tokens) (spaced last tokens)).Pairwise (· < ·) ∧
      ∀ offset ∈ ends (spacedLength last tokens) (spaced last tokens), last < offset := by
  induction tokens generalizing last with
  | nil => exact ⟨List.pairwise_singleton .., List.forall_mem_singleton.2 (Nat.lt_succ_self last)⟩
  | cons token rest inductionHypothesis =>
    obtain ⟨width, others⟩ := List.forall_mem_cons.1 nonempty
    obtain ⟨rises, behind⟩ := inductionHypothesis others (last + 1 + token.length)
    have starts : last < last + 1 := Nat.lt_succ_self last
    have stops : last + 1 < last + 1 + token.length := Nat.lt_add_of_pos_right width
    exact ⟨List.pairwise_cons.2 ⟨List.forall_mem_cons.2 ⟨stops,
      fun offset member => Nat.lt_trans stops (behind offset member)⟩,
        List.pairwise_cons.2 ⟨behind, rises⟩⟩,
      List.forall_mem_cons.2 ⟨starts, List.forall_mem_cons.2 ⟨Nat.lt_trans starts stops,
        fun offset member => Nat.lt_trans (Nat.lt_trans starts stops) (behind offset member)⟩⟩⟩

theorem length_mem_ends : length ∈ ends length tokens := by
  induction tokens with
  | nil => exact List.mem_singleton_self _
  | cons _ _ inductionHypothesis =>
    exact List.mem_cons_of_mem _ (List.mem_cons_of_mem _ inductionHypothesis)

theorem start_mem_ends {token : Token} (member : token ∈ tokens) :
    token.start ∈ ends length tokens := by
  induction tokens with
  | nil => cases member
  | cons first rest inductionHypothesis =>
    rcases List.mem_cons.1 member with rfl | among
    · exact List.mem_cons_self
    · exact List.mem_cons_of_mem _ (List.mem_cons_of_mem _ (inductionHypothesis among))

/-- Tokens whose ends are all different and in order lie one behind the other. -/
theorem ordered_of_ends (rises : (ends length tokens).Pairwise (· < ·)) :
    Ordered tokens ∧ ∀ token ∈ tokens, token.stop ≤ length := by
  induction tokens with
  | nil => exact ⟨⟨.nil, List.forall_mem_nil _⟩, List.forall_mem_nil _⟩
  | cons token rest inductionHypothesis =>
    obtain ⟨starts, others⟩ := List.pairwise_cons.1 rises
    obtain ⟨stops, risesRest⟩ := List.pairwise_cons.1 others
    obtain ⟨ordered, within⟩ := inductionHypothesis risesRest
    refine ⟨⟨List.pairwise_cons.2 ⟨fun other member => ?_, ordered.pairwise⟩,
      List.forall_mem_cons.2 ⟨starts _ List.mem_cons_self, ordered.nonempty⟩⟩,
      List.forall_mem_cons.2 ⟨Nat.le_of_lt (stops _ length_mem_ends), within⟩⟩
    exact Nat.le_of_lt (stops _ (start_mem_ends member))

/-- The ends of as many tokens are paired, each start with a start and each stop with a stop. -/
theorem zip_ends (length copyLength : Nat) (same : tokens.length = copies.length) :
    (length, copyLength) ∈ (ends length tokens).zip (ends copyLength copies) ∧
      List.Forall₂ (fun token copy : Token =>
        (token.start, copy.start) ∈ (ends length tokens).zip (ends copyLength copies) ∧
          (token.stop, copy.stop) ∈ (ends length tokens).zip (ends copyLength copies))
        tokens copies := by
  induction tokens generalizing copies with
  | nil =>
    obtain rfl := List.length_eq_zero_iff.1 same.symm
    exact ⟨List.mem_singleton_self _, .nil⟩
  | cons token rest inductionHypothesis =>
    cases copies with
    | nil => cases same
    | cons copy others =>
      obtain ⟨last, paired⟩ := inductionHypothesis (Nat.succ.inj same)
      have further {pair : Nat × Nat}
          (member : pair ∈ (ends length rest).zip (ends copyLength others)) :
          pair ∈ (ends length (token :: rest)).zip (ends copyLength (copy :: others)) :=
        List.mem_cons_of_mem _ (List.mem_cons_of_mem _ member)
      exact ⟨further last, .cons ⟨List.mem_cons_self, List.mem_cons_of_mem _ List.mem_cons_self⟩
        (paired.imp fun _ _ both => ⟨further both.1, further both.2⟩)⟩

end Token

/-! ### Tokens spelled otherwise -/

namespace Token

/-- The bytes of a string token, if its escapes are valid. -/
def stringValue? (token : Token) : Option (List UInt8) :=
  if token.kind = .longString then some (Utf8.encode (LongBracket.value token.text))
  else (Escape.decode (token.text.drop 1).dropLast).toOption

/-- The second token is the first one with its text replaced, where it is a string or a comment. It
has the same bytes as a string and is delimited in the same way as a comment. -/
structure Respelled (respell : List Char → List Char) (token copy : Token) : Prop where
  kind : copy.kind = token.kind
  verbatim : token.kind.isVerbatim → copy.text = token.text
  string : token.kind = .quotedString ∨ token.kind = .longString →
    copy.text = respell token.text ∧ copy.stringValue? = token.stringValue?
  comment : token.kind = .comment →
    copy.text = respell token.text ∧
      (Comment.ofToken copy).style = (Comment.ofToken token).style ∧
        (Comment.ofToken copy).text =
          if (Comment.ofToken token).style = .block then respell (Comment.ofToken token).text
          else (Comment.ofToken token).text

theorem toOption_stringLiteral (token : Token) :
    (Grammar.stringLiteral token).toOption =
      token.stringValue?.map fun bytes => ⟨.string bytes, token.text, token.span⟩ := by
  unfold Grammar.stringLiteral stringValue?
  split
  · rfl
  · cases Escape.decode (token.text.drop 1).dropLast <;> rfl

theorem raw_ofToken (token : Token) : (Comment.ofToken token).raw = token.text := by
  unfold Comment.ofToken
  dsimp only
  split <;> rfl

/-- Where a comment stands plays no role for how it is delimited and what it says. -/
theorem ofToken_congr {first second : Token} (text : first.text = second.text) :
    (Comment.ofToken first).style = (Comment.ofToken second).style ∧
      (Comment.ofToken first).text = (Comment.ofToken second).text := by
  unfold Comment.ofToken
  rw [text]
  dsimp only
  split <;> exact ⟨rfl, rfl⟩

/-- A token is respelled as itself if nothing is replaced. -/
theorem respelled_of_eq {token copy : Token} (kind : copy.kind = token.kind)
    (text : copy.text = token.text) : Respelled id token copy := by
  obtain ⟨style, content⟩ := ofToken_congr text
  refine ⟨kind, fun _ => text, fun _ => ⟨text, ?_⟩, fun _ => ⟨text, style, ?_⟩⟩
  · rw [stringValue?, stringValue?, kind, text]
  · rw [content, id_eq, ite_self]

/-- Where a token stands plays no role for how it is respelled. -/
theorem Respelled.moved {respell : List Char → List Char} {token copy : Token}
    (respelled : token.Respelled respell copy) (start : Nat) :
    Respelled respell ⟨token.kind, token.text, start⟩ copy := by
  have moved : (Token.mk token.kind token.text start).text = token.text := rfl
  obtain ⟨style, content⟩ := ofToken_congr moved
  refine ⟨respelled.kind, respelled.verbatim, respelled.string, fun isComment => ?_⟩
  rw [style, content]
  exact respelled.comment isComment

end Token

namespace Transcription

variable {transcription : Transcription}

/-- A token that is respelled, and whose ends are where the ends of the token go, is its copy. -/
theorem carries_of_respelled {token copy : Token}
    (respelled : token.Respelled transcription.text copy)
    (start : copy.start = transcription.place token.start)
    (stop : copy.stop = transcription.place token.stop) : transcription.Carries token copy := by
  have span : copy.span = transcription.span token.span := by
    rw [Token.span, start, stop]
    rfl
  refine ⟨respelled.kind, start, stop, respelled.verbatim, fun isString => ?_, fun isComment => ?_⟩
  · obtain ⟨text, value⟩ := respelled.string isString
    rw [Token.toOption_stringLiteral, Token.toOption_stringLiteral, value, text, span,
      Option.map_map]
    rfl
  · obtain ⟨raw, style, text⟩ := respelled.comment isComment
    have copySpan := Comment.span_ofToken copy
    have copyRaw := Token.raw_ofToken copy
    rw [span] at copySpan
    rw [raw] at copyRaw
    rw [comment, Comment.span_ofToken, Token.raw_ofToken, ← text, ← style, ← copySpan, ← copyRaw]

/-- Tokens in a source are copies of the same tokens set apart, up to their spelling. -/
theorem exists_carries {respell : List Char → List Char} {tokens copies : List Token} {length : Nat}
    (contentLines : ∀ text, Comment.contentLines (respell text) = Comment.contentLines text)
    (nonempty : ∀ token ∈ tokens, 0 < token.length) (ordered : Token.Ordered copies)
    (within : ∀ copy ∈ copies, copy.stop ≤ length)
    (respelled : List.Forall₂ (Token.Respelled respell) tokens copies) :
    ∃ transcription : Transcription, transcription.place 0 = 0 ∧
      transcription.place (Token.spacedLength 0 tokens) = length ∧
        List.Forall₂ transcription.Carries (Token.spaced 0 tokens) copies := by
  obtain ⟨rises, positive⟩ := Token.pairwise_ends_spaced nonempty 0
  have rising := pairwise_zip rises (ordered.pairwise_ends within)
  have respelledSpaced (last : Nat) :
      List.Forall₂ (Token.Respelled respell) (Token.spaced last tokens) copies := by
    clear rises positive rising nonempty ordered within
    induction respelled generalizing last with
    | nil => exact .nil
    | cons first _ inductionHypothesis =>
      exact .cons (first.moved _) (inductionHypothesis _)
  obtain ⟨last, paired⟩ := Token.zip_ends (Token.spacedLength 0 tokens) length
    (respelledSpaced 0).length_eq
  generalize Token.ends (Token.spacedLength 0 tokens) (Token.spaced 0 tokens) = points at *
  refine ⟨⟨placeAmong (points.zip (Token.ends length copies)), respell, monotone_placeAmong _,
    contentLines⟩, placeAmong_eq_zero fun point member => ?_, placeAmong_of_mem rising last, ?_⟩
  · exact positive _ (List.of_mem_zip member).1
  · refine List.Forall₂.mp (fun token copy same ends => ?_) (respelledSpaced 0) paired
    exact carries_of_respelled same (placeAmong_of_mem rising ends.1).symm
      (placeAmong_of_mem rising ends.2).symm

end Transcription

/-! ### Reading tokens as a program -/

namespace Program

/-- Reads tokens of a source of the given length as a program. -/
def read (tokens : List Token) (length : Nat) : Except ParseError Program := do
  let ⟨body, rest, _⟩ ← Grammar.block ⟨tokens.filter (·.kind != .comment), 0, length⟩
  if rest.kind = .endOfSource then
    return ⟨⟨body, ⟨0, length⟩⟩, (tokens.filter (·.kind == .comment)).map Comment.ofToken⟩
  else
    throw (rest.missing .endOfSource)

theorem parse_eq_read (source : List Char) :
    parse source = read (Token.ofText source) (byteLength source) := rfl

variable {tokens : List Token} {length : Nat} {program : Program}

/-- The regions of a program that is read from tokens are nested, and its comments are tokens. -/
theorem nested_of_read (ordered : Token.Ordered tokens)
    (within : ∀ token ∈ tokens, token.stop ≤ length) (found : read tokens length = .ok program) :
    program.chunk.extendClauses.region.Nested tokens ∧
      ∀ remark ∈ program.comments, remark.Cut tokens := by
  unfold read at found
  obtain ⟨⟨body, rest, _⟩, bodyFound, found⟩ := bind_eq_ok.1 found
  obtain ⟨used, steps, reads⟩ := (Grammar.accounted _).block _ bodyFound
  dsimp only at found
  split at found
  · cases found
    have part : used.Sublist tokens :=
      (steps.remaining ▸ List.sublist_append_left used _).trans List.filter_sublist
    refine ⟨Chunk.nested_of_stretch reads ⟨ordered, part⟩ within,
      List.forall_mem_map.2 fun token member => ?_⟩
    have isToken := List.mem_of_mem_filter member
    exact ⟨token, isToken, Comment.span_ofToken token, ordered.nonempty token isToken⟩
  · cases found

end Program

namespace Transcription

variable {transcription : Transcription} {tokens copies : List Token} {length copyLength : Nat}

/-- The second program is the first one written elsewhere. -/
structure Copies (transcription : Transcription) (program copy : Program) : Prop where
  chunk : copy.chunk = program.chunk.recast transcription.recasting
  comments : copy.comments = program.comments.map transcription.comment

/-- Copies of tokens are read as the copy of what the tokens are read as. -/
theorem agree_read (start : transcription.place 0 = 0)
    (stop : transcription.place length = copyLength)
    (carries : List.Forall₂ transcription.Carries tokens copies) :
    Agree transcription.Copies (Program.read tokens length) (Program.read copies copyLength) := by
  have code : List.Forall₂ transcription.Carries (tokens.filter (·.kind != .comment))
      (copies.filter (·.kind != .comment)) :=
    List.rel_filter (fun token copy same => by
      show (token.kind != .comment) = true ↔ (copy.kind != .comment) = true
      rw [same.kind]) carries
  have comments : (copies.filter (·.kind == .comment)).map Comment.ofToken =
      ((tokens.filter (·.kind == .comment)).map Comment.ofToken).map transcription.comment := by
    clear code
    induction carries with
    | nil => rfl
    | @cons token copy _ _ same _ inductionHypothesis =>
      rw [List.filter_cons, List.filter_cons, same.kind]
      split
      next isComment =>
        rw [List.map_cons, List.map_cons, List.map_cons, same.comment (eq_of_beq isComment),
          inductionHypothesis]
      · exact inductionHypothesis
  unfold Program.read
  have moves : transcription.Moves ⟨tokens.filter (·.kind != .comment), 0, length⟩
      ⟨copies.filter (·.kind != .comment), 0, copyLength⟩ := ⟨code, start.symm⟩
  refine (Grammar.transcribed transcription moves).block.andThen fun _ _ sameBody rest => ?_
  dsimp only
  rw [rest.kind_eq]
  split
  · refine .ok ⟨?_, comments⟩
    have whole : transcription.recasting.span ⟨0, length⟩ = ⟨0, copyLength⟩ :=
      congrArg₂ Span.mk start stop
    rw [sameBody, Chunk.recast, whole]
  · exact .error (rest.missing _)

/-! ### Laying out -/

/-- A text with one content line at most is that line once it is trimmed. -/
theorem trim_eq_flatten {text : List Char} (few : (Comment.contentLines text).length < 2) :
    trim text = (Comment.contentLines text).flatten := by
  have single : ∀ c ∈ trim text, Token.isLineBreak c = false := by
    have none := Comment.any_isLineBreak_trim text
    rw [decide_eq_false (Nat.not_le.2 few), List.any_eq_false] at none
    exact fun c member => Bool.eq_false_iff.2 (none c member)
  rw [← Comment.contentLines_trim, Comment.contentLines_of_noLineBreak single, trim_trim]
  split
  next empty => exact empty
  · exact (List.append_nil _).symm

/-- The copy of a comment looks like the comment. -/
theorem shown_comment (remark : Comment) :
    (transcription.comment remark).shown = remark.shown := by
  obtain ⟨text, raw, style, span⟩ := remark
  cases style with
  | line => rfl
  | block =>
    have lines := transcription.contentLines text
    have multi (text raw : List Char) (span : Span) :
        (Comment.mk text raw .block span).isMulti =
          decide (2 ≤ (Comment.contentLines text).length) := Comment.isMulti_eq _
    rw [comment, if_pos rfl, Comment.shown, Comment.shown, multi, multi, lines]
    split
    · rfl
    next few =>
      rw [decide_eq_true_eq, Nat.not_le] at few
      rw [trim_eq_flatten few, trim_eq_flatten (lines ▸ few), lines]

theorem shown_recast : transcription.recasting.followedBy .shown = .shown := by
  refine congrArg₂ (Recasting.mk fun _ => default) ?_ ?_
  · funext remark
    exact congrArg some (shown_comment remark)
  · funext constant
    obtain ⟨value, raw, span⟩ := constant
    cases value <;> rfl

/-- Tokens take up some of the source where their copies do. -/
theorem widens_of_carries (ordered : Token.Ordered copies)
    (carries : List.Forall₂ transcription.Carries tokens copies) :
    transcription.Widens tokens := by
  induction carries with
  | nil => exact List.forall_mem_nil _
  | @cons token copy _ _ same _ inductionHypothesis =>
    refine List.forall_mem_cons.2 ⟨?_, inductionHypothesis ordered.tail⟩
    rw [← same.start, ← same.stop]
    exact ordered.nonempty copy List.mem_cons_self

variable {program copy : Program}

/-- The copy of a program is arranged as the copy of the arranged program. -/
theorem Copies.arrange_eq (same : transcription.Copies program copy)
    (wide : transcription.Widens tokens) (ordered : Token.Ordered tokens)
    (nested : program.chunk.extendClauses.region.Nested tokens)
    (cut : ∀ remark ∈ program.comments, remark.Cut tokens) :
    copy.arrange = program.arrange.recast transcription.recasting := by
  have moves (span : Span) : transcription.recasting.span span =
      ⟨transcription.place span.start, transcription.place span.stop⟩ := rfl
  refine Chunk.eq_of_region ?_ ?_
  · -- Without spans and comments, literals are all that is replaced, and they read as they did.
    have apart : transcription.recasting.followedBy .bare =
        Recasting.bare.followedBy ⟨fun _ => default, fun _ => none, transcription.raw⟩ := rfl
    have bare := congrArg (Statement.recastAll ⟨fun _ => default, fun _ => none, transcription.raw⟩)
      program.recast_arrange
    rw [Statement.recastAll_recastAll, Statement.recastAll_recastAll] at bare
    rw [copy.recast_arrange, same.chunk, Chunk.recast, Chunk.recast,
      Statement.recastAll_recastAll, Statement.recastAll_recastAll, apart]
    exact bare.symm
  · rw [Chunk.region_recast, Program.arrange, Program.arrange, same.comments]
    refine region_placeComments wide ordered cut nested.uncut ?_
    rw [same.chunk, Chunk.extendClauses_recast moves, Chunk.region_recast]

/-- The copy of a program has the layout of the program. -/
theorem Copies.toOption_doc_eq (same : transcription.Copies program copy)
    (wide : transcription.Widens tokens) (ordered : Token.Ordered tokens)
    (nested : program.chunk.extendClauses.region.Nested tokens)
    (cut : ∀ remark ∈ program.comments, remark.Cut tokens) (config : Config) :
    (copy.arrange.doc config).toOption = (program.arrange.doc config).toOption := by
  refine Chunk.toOption_doc_congr config ?_
  rw [same.arrange_eq wide ordered nested cut, Chunk.recast, Statement.recastAll_recastAll,
    shown_recast]

end Transcription

/-! ### Sources with the same tokens -/

/-- The tokens of a source take up some of it. -/
theorem Token.length_pos_of_mem_ofText (source : List Char) :
    ∀ token ∈ Token.ofText source, 0 < token.length := by
  intro token member
  have width := (Token.ordered_ofText source).nonempty token member
  rw [Token.stop] at width
  omega

/-- Two sources with the same tokens, up to the spelling of strings and comments, both fail to parse
for the same cause, or both have the same layout. -/
theorem format_congr_of_respelled {respell : List Char → List Char} {first second : List Char}
    (contentLines : ∀ text, Comment.contentLines (respell text) = Comment.contentLines text)
    (respelled : List.Forall₂ (Token.Respelled respell) (Token.ofText first)
      (Token.ofText second)) :
    (∃ error other, Program.parse first = .error error ∧ Program.parse second = .error other ∧
      other.unplaced = error.unplaced) ∨
    ∃ program copy, Program.parse first = .ok program ∧ Program.parse second = .ok copy ∧
      ∀ config, ∃ text, formatText config first = .ok text ∧
        formatText config second = .ok text := by
  have itself : List.Forall₂ (Token.Respelled id) (Token.ofText first) (Token.ofText first) :=
    List.forall₂_same.2 fun token _ => Token.respelled_of_eq rfl rfl
  have nonempty := Token.length_pos_of_mem_ofText first
  have orderedFirst := Token.ordered_ofText first
  have orderedSecond := Token.ordered_ofText second
  obtain ⟨toFirst, startFirst, stopFirst, carriesFirst⟩ := Transcription.exists_carries
    (fun _ => rfl) nonempty orderedFirst (Token.tiles_ofText first).within itself
  obtain ⟨toSecond, startSecond, stopSecond, carriesSecond⟩ := Transcription.exists_carries
    contentLines nonempty orderedSecond (Token.tiles_ofText second).within respelled
  have readFirst := Transcription.agree_read startFirst stopFirst carriesFirst
  have readSecond := Transcription.agree_read startSecond stopSecond carriesSecond
  rw [← Program.parse_eq_read] at readFirst readSecond
  obtain ⟨ordered, within⟩ := Token.ordered_of_ends (Token.pairwise_ends_spaced nonempty 0).1
  cases found : Program.read (Token.spaced 0 (Token.ofText first))
      (Token.spacedLength 0 (Token.ofText first)) with
  | error error =>
    rw [found] at readFirst readSecond
    generalize Program.parse first = parsedFirst at readFirst
    generalize Program.parse second = parsedSecond at readSecond
    cases readFirst with
    | error same =>
      cases readSecond with
      | error other => exact .inl ⟨_, _, rfl, rfl, other.trans same.symm⟩
  | ok program =>
    rw [found] at readFirst readSecond
    obtain ⟨nested, cut⟩ := Program.nested_of_read ordered within found
    obtain ⟨firstProgram, parsedFirst, copiesFirst⟩ := readFirst.of_ok
    obtain ⟨secondProgram, parsedSecond, copiesSecond⟩ := readSecond.of_ok
    refine .inr ⟨firstProgram, secondProgram, parsedFirst, parsedSecond, fun config => ?_⟩
    obtain ⟨text, -, laid, -, -⟩ := Program.format_reads config parsedFirst
    refine ⟨text, laid, ?_⟩
    rw [formatText, parsedFirst] at laid
    rw [formatText, parsedSecond]
    have docFirst := copiesFirst.toOption_doc_eq
      (Transcription.widens_of_carries orderedFirst carriesFirst) ordered nested cut config
    have docSecond := copiesSecond.toOption_doc_eq
      (Transcription.widens_of_carries orderedSecond carriesSecond) ordered nested cut config
    exact Program.format_congr (docSecond.trans docFirst.symm) laid

/-! ### White space -/

/-- White space does not matter. Two sources with the same tokens, comments included, both fail to
parse with the same error up to its place, or they have the same layout in every configuration,
whatever stands between the tokens and wherever there is nothing between them. -/
theorem format_ignores_spacing {first second : List Char}
    (same : (Token.ofText first).map (fun token => (token.kind, token.text)) =
      (Token.ofText second).map fun token => (token.kind, token.text)) :
    (∃ error other, Program.parse first = .error error ∧ Program.parse second = .error other ∧
      other.unplaced = error.unplaced) ∨
    ∃ program copy, Program.parse first = .ok program ∧ Program.parse second = .ok copy ∧
      ∀ config, ∃ text, formatText config first = .ok text ∧
        formatText config second = .ok text := by
  have paired := List.forall₂_eq_eq_eq ▸ same
  rw [List.forall₂_map_left_iff, List.forall₂_map_right_iff] at paired
  have kept (text : List Char) : Comment.contentLines (id text) = Comment.contentLines text := rfl
  refine format_congr_of_respelled kept (paired.imp fun token copy equal => ?_)
  obtain ⟨kind, text⟩ := Prod.mk.inj equal
  exact Token.respelled_of_eq kind.symm text.symm

theorem format_ignores_spacing_of_comments :
    (Token.ofText "f()--[[a]]--[[b]]x=\x7b--[[c]]y\x7d".toList).map
        (fun token => (token.kind, token.text)) =
      (Token.ofText "f ( )\n--[[a]]  --[[b]]\n\tx = \x7b\n--[[c]] y \x7d\n".toList).map
        (fun token => (token.kind, token.text)) ∧
    ∃ program copy, Program.parse "f()--[[a]]--[[b]]x=\x7b--[[c]]y\x7d".toList = .ok program ∧
      Program.parse "f ( )\n--[[a]]  --[[b]]\n\tx = \x7b\n--[[c]] y \x7d\n".toList = .ok copy ∧
      ∀ config, ∃ text,
        formatText config "f()--[[a]]--[[b]]x=\x7b--[[c]]y\x7d".toList = .ok text ∧
        formatText config "f ( )\n--[[a]]  --[[b]]\n\tx = \x7b\n--[[c]] y \x7d\n".toList =
          .ok text := by
  have same : (Token.ofText "f()--[[a]]--[[b]]x=\x7b--[[c]]y\x7d".toList).map
        (fun token => (token.kind, token.text)) =
      (Token.ofText "f ( )\n--[[a]]  --[[b]]\n\tx = \x7b\n--[[c]] y \x7d\n".toList).map
        (fun token => (token.kind, token.text)) := by
    decide +kernel
  obtain ⟨program, parsed⟩ := Program.exists_of_isOk
    (show (Program.parse "f()--[[a]]--[[b]]x=\x7b--[[c]]y\x7d".toList).isOk by decide +kernel)
  refine ⟨same, ?_⟩
  rcases format_ignores_spacing same with ⟨error, _, failed, _, _⟩ | both
  · cases parsed.symm.trans failed
  · exact both

end LuaStyle
