/-
This file says that a syntax error is reported at the earliest token possible.

The parser works by foresight as a whole, so a token it blames for where it stands is the one in
front of which it stopped. What it has read up to there can be completed by tokens that each have
one text or are names, and these tokens, each on a line of its own, are the tokens of some source.
On the other hand the grammar asks no more of a token than its kind and its text, so every source
with the same tokens up to the one that is blamed is refused there for the same reason.
-/

import LuaStyle.Proofs.OwnLines
import LuaStyle.Proofs.Viability

namespace LuaStyle

/-! ### Lexemes -/

theorem ParseError.isSome_token?_unplaced (error : ParseError) :
    error.unplaced.token?.isSome = error.token?.isSome := by
  cases error <;> rfl

/-- The grammar asks no more of a token than its kind and its text. -/
theorem Token.gist_eq_of_lexeme {first second : Token} (same : first.lexeme = second.lexeme) :
    first.gist = second.gist := by
  obtain ⟨kind, text, start⟩ := first
  obtain ⟨_, _, other⟩ := second
  cases same
  have string : (fault?.errorOf? (Grammar.stringLiteral ⟨kind, text, start⟩)).map
      ParseError.unplaced =
      (fault?.errorOf? (Grammar.stringLiteral ⟨kind, text, other⟩)).map ParseError.unplaced := by
    unfold Grammar.stringLiteral
    dsimp only
    split
    · rfl
    · cases Escape.decode (text.drop 1).dropLast <;> rfl
  have number : (fault?.errorOf? (Grammar.numberLiteral ⟨kind, text, start⟩)).map
      ParseError.unplaced =
      (fault?.errorOf? (Grammar.numberLiteral ⟨kind, text, other⟩)).map ParseError.unplaced := by
    unfold Grammar.numberLiteral
    dsimp only
    cases Numeral.valueOf? text <;> rfl
  unfold gist fault?
  cases kind with
  | number => exact congrArg _ number
  | quotedString => exact congrArg _ string
  | longString => exact congrArg _ string
  | _ => rfl

theorem Token.map_gist_of_lexemes {tokens copy : List Token}
    (same : copy.map Token.lexeme = tokens.map Token.lexeme) :
    copy.map Token.gist = tokens.map Token.gist := by
  induction tokens generalizing copy with
  | nil =>
    cases List.map_eq_nil_iff.1 same
    rfl
  | cons token tokens inductionHypothesis =>
    obtain ⟨first, rest, rfl, firstSame, others⟩ := List.map_eq_cons_iff.1 same
    rw [List.map_cons, List.map_cons, gist_eq_of_lexeme firstSame, inductionHypothesis others]

/-- The lexemes of a source that are no comments, and one that says that the source ends. -/
def Program.lexemes (source : List Char) : List (Token.Kind × List Char) :=
  (start source).stream.map Token.lexeme

namespace Reader

/-! ### Whole programs -/

/-- Reads nothing, where the source ends. -/
def ended : Reader Unit :=
  look fun kind => if kind = .endOfSource then pure () else fail (.expected .endOfSource)

/-- Reads a source to its end. -/
def program : Reader Unit := do
  block
  ended

/-- The reader of a whole source answers as the parser does. -/
theorem map_program_start (source : List Char) :
    (program (Program.start source)).map (fun _ => ()) =
      ((Program.parse source).map fun _ => ()).mapError ParseError.bare := by
  rw [Program.parse]
  cases read : Grammar.block (Program.start source) with
  | error error =>
    have failed : block (Program.start source) = .error error.bare := by
      rw [block, ← skip_apply, read]
      rfl
    rw [program, bind_of_error failed]
    rfl
  | ok parsed =>
    obtain ⟨body, rest, within⟩ := parsed
    have found : block (Program.start source) = .ok ((), rest) := by
      rw [block, ← skip_apply, read]
      rfl
    rw [program, bind_of_ok found, ended, look]
    change _ = Except.mapError _ (Except.map _ (if rest.kind = .endOfSource then _ else _))
    split <;> rfl

theorem program_eq_error {source : List Char} {error : ParseError}
    (failed : Program.parse source = .error error) :
    program (Program.start source) = .error error.bare := by
  have same := map_program_start source
  rw [failed] at same
  cases read : program (Program.start source) with
  | ok result =>
    rw [read] at same
    cases same
  | error failure =>
    rw [read] at same
    cases same
    rfl

theorem exists_parse_eq_ok {source : List Char} {result : Unit × Cursor}
    (read : program (Program.start source) = .ok result) :
    ∃ tree, Program.parse source = .ok tree := by
  cases parsed : Program.parse source with
  | ok tree => exact ⟨tree, rfl⟩
  | error error => cases (program_eq_error parsed).symm.trans read

theorem exists_parse_eq_error {source : List Char} {failure : ParseError}
    (failed : program (Program.start source) = .error failure) :
    ∃ error, Program.parse source = .error error ∧ error.bare = failure := by
  cases parsed : Program.parse source with
  | error error =>
    exact ⟨error, rfl, Except.error.inj ((program_eq_error parsed).symm.trans failed)⟩
  | ok tree =>
    have same := map_program_start source
    rw [parsed, failed] at same
    cases same

theorem serves_ended (bound : Nat) :
    ended.Serves bound [] (· == .endOfSource) fun _ => True := by
  refine ⟨.look fun kind => ?_, .look_nil fun kind ends => ?_, rfl⟩
  · split
    · exact foresees_pure ()
    · exact foresees_fail (isBlame_expected _)
  · rw [if_pos (eq_of_beq ends)]
    exact accepts_pure trivial

/-- A program is a block, and a block may end where the source does. -/
theorem serves_program (bound : Nat) :
    program.Serves bound [] (· == .endOfSource) fun _ => True := by
  exact (foreseen bound).serves_block.bind (fun _ => serves_ended bound) (holds_of_beq rfl)

end Reader

/-! ### Sources for lexemes -/

namespace Token

/-- A text for a kind that has one text, and a name. -/
def filling (kind : Kind) : Kind × List Char :=
  (kind, kind.label)

theorem endsLine_filling {kind : Kind} (plain : kind.isFiller) : EndsLine (filling kind) := by
  cases kind with
  | keyword word => exact endsLine_word word
  | symbol mark => exact endsLine_symbol mark
  | name => exact endsLine_name ⟨_, _, rfl, rfl, List.all_eq_true.1 rfl, rfl⟩
  | _ => cases plain

theorem gist_eq_of_filling {token : Token} {kind : Kind} (plain : kind.isFiller)
    (same : token.lexeme = filling kind) : token.gist = (kind, none) := by
  obtain ⟨other, text, start⟩ := token
  obtain rfl : other = kind := congrArg Prod.fst same
  cases other <;> first | rfl | cases plain

end Token

theorem Token.map_gist_of_fillings {tokens : List Token} {filler : List Token.Kind}
    (plain : ∀ kind ∈ filler, kind.isFiller)
    (same : tokens.map Token.lexeme = filler.map Token.filling) :
    tokens.map Token.gist = Token.gistsOf filler := by
  induction filler generalizing tokens with
  | nil =>
    cases List.map_eq_nil_iff.1 same
    rfl
  | cons kind filler inductionHypothesis =>
    obtain ⟨token, rest, rfl, first, others⟩ := List.map_eq_cons_iff.1 same
    obtain ⟨firstPlain, othersPlain⟩ := List.forall_mem_cons.1 plain
    rw [List.map_cons, gist_eq_of_filling firstPlain first, inductionHypothesis othersPlain others]
    rfl

theorem Program.mem_ofText_of_mem_start {source : List Char} {token : Token}
    (member : token ∈ (start source).remaining) : token ∈ Token.ofText source :=
  (List.mem_filter.1 member).1

theorem Program.mem_ofText_of_mem_stream {source : List Char} {token : Token}
    (member : token ∈ (start source).stream) (usable : token.kind.isUsable) :
    token ∈ Token.ofText source := by
  rcases List.mem_append.1 member with isToken | isEnd
  · exact mem_ofText_of_mem_start isToken
  · rw [List.mem_singleton.1 isEnd] at usable
    cases usable

/-- The first lexemes of a source are those of its first tokens. -/
theorem Program.take_lexemes {source : List Char} {used more : List Token}
    (stream : (start source).stream = used ++ more) :
    (lexemes source).take used.length = used.map Token.lexeme := by
  rw [lexemes, stream, List.map_append, List.take_left' (List.length_map _)]

/-- The lexemes of a source that is written for them. -/
theorem Program.lexemes_onLines {lexemes : List (Token.Kind × List Char)}
    (endLines : ∀ lexeme ∈ lexemes, Token.EndsLine lexeme)
    (noComment : ∀ lexeme ∈ lexemes, lexeme.1 ≠ .comment) :
    Program.lexemes (Token.onLines lexemes) = lexemes ++ [(.endOfSource, [])] := by
  have cut := Token.lexemes_onLines endLines
  have all : (Token.ofText (Token.onLines lexemes)).filter (·.kind != .comment) =
      Token.ofText (Token.onLines lexemes) := by
    refine List.filter_eq_self.2 fun token member => bne_iff_ne.2 ?_
    exact noComment token.lexeme (cut ▸ List.mem_map_of_mem member)
  rw [Program.lexemes, Cursor.stream, start, all, List.map_append, cut]
  rfl

/-- Tokens of a source that can be completed to a program are those that some program starts
with. -/
theorem Program.exists_completion {source : List Char} {used : List Token}
    {filler : List Token.Kind} (found : ∀ token ∈ used, token ∈ Token.ofText source)
    (usable : ∀ token ∈ used, token.kind.isUsable) (plain : filler.all Token.Kind.isFiller)
    (accepts : Reader.program.Accepts (used.map Token.gist ++ Token.gistsOf filler)
      (· == .endOfSource) fun _ => True) :
    ∃ completed tree, parse completed = .ok tree ∧
      (lexemes completed).take used.length = used.map Token.lexeme := by
  have fillers := List.all_eq_true.1 plain
  let written := used.map Token.lexeme ++ filler.map Token.filling
  have endLines : ∀ lexeme ∈ written, Token.EndsLine lexeme :=
    List.forall_mem_append.2 ⟨List.forall_mem_map.2 fun token member =>
      Token.endsLine_of_mem (found token member)
        (Token.Kind.isClosed_of_isUsable (usable token member)),
      List.forall_mem_map.2 fun kind member => Token.endsLine_filling (fillers kind member)⟩
  have noComment : ∀ lexeme ∈ written, lexeme.1 ≠ .comment := by
    refine List.forall_mem_append.2 ⟨List.forall_mem_map.2 fun token member same => ?_,
      List.forall_mem_map.2 fun kind member same => ?_⟩
    · have isUsable := usable token member
      rw [show token.kind = .comment from same] at isUsable
      cases isUsable
    · have isFiller := fillers kind member
      rw [show kind = .comment from same] at isFiller
      cases isFiller
  have lexemesSame := lexemes_onLines endLines noComment
  refine ⟨Token.onLines written, ?_⟩
  obtain ⟨tokens, last, stream, tokensSame, lastSame⟩ := List.map_eq_append_iff.1 lexemesSame
  obtain ⟨mark, nothing, rfl, markSame, nil⟩ := List.map_eq_cons_iff.1 lastSame
  cases List.map_eq_nil_iff.1 nil
  have gists : tokens.map Token.gist = used.map Token.gist ++ Token.gistsOf filler := by
    obtain ⟨front, back, rfl, frontSame, backSame⟩ := List.map_eq_append_iff.1 tokensSame
    rw [List.map_append, Token.map_gist_of_lexemes frontSame,
      Token.map_gist_of_fillings fillers backSame]
  obtain ⟨_, _, read, -⟩ := accepts stream gists (beq_iff_eq.2 (congrArg Prod.fst markSame))
  obtain ⟨tree, parsed⟩ := Reader.exists_parse_eq_ok read
  refine ⟨tree, parsed, ?_⟩
  rw [lexemesSame, List.append_assoc, List.take_left' (List.length_map _)]

/-- The tokens that the grammar meets in a source start one behind the other. -/
theorem Program.pairwise_stream (source : List Char) :
    (start source).stream.Pairwise fun first second => first.start < second.start := by
  have tiles := Token.tiles_ofText source
  refine List.pairwise_append.2 ⟨?_, List.pairwise_singleton _ _, fun token member => ?_⟩
  · refine List.Pairwise.imp_of_mem ?_ (tiles.inOrder.filter _)
    intro first second member _ behind
    exact Nat.lt_of_lt_of_le (tiles.nonempty first (mem_ofText_of_mem_start member)) behind
  · have isToken := mem_ofText_of_mem_start member
    exact List.forall_mem_singleton.2
      (Nat.lt_of_lt_of_le (tiles.nonempty token isToken) (tiles.within token isToken))

/-- A token is met once. -/
theorem Program.getElem?_stream_inj {source : List Char} {token : Token} {used more : List Token}
    (stream : (start source).stream = used ++ token :: more) (place : Nat) :
    (start source).stream[place]? = some token ↔ place = used.length := by
  have distinct : (start source).stream.Nodup := by
    refine (pairwise_stream source).imp ?_
    rintro first _ before rfl
    exact Nat.lt_irrefl _ before
  have found : (start source).stream[used.length]? = some token := by
    rw [stream, List.getElem?_append_right (Nat.le_refl _), Nat.sub_self]
    rfl
  refine ⟨fun same => ?_, fun same => same ▸ found⟩
  obtain ⟨within, -⟩ := List.getElem?_eq_some_iff.1 same
  exact (List.getElem?_inj within distinct).1 (same.trans found.symm)

/-- Where two sources have the same lexemes up to a token, the tokens of the one are like those of
the other. -/
theorem Program.exists_stream_of_lexemes {source other : List Char} {used more : List Token}
    {token : Token} (stream : (start source).stream = used ++ token :: more)
    (same : (lexemes other).take (used.length + 1) = (lexemes source).take (used.length + 1)) :
    ∃ copy next rest, (start other).stream = copy ++ next :: rest ∧
      copy.length = used.length ∧ copy.map Token.gist = used.map Token.gist ∧
      next.gist = token.gist := by
  rw [List.append_cons] at stream
  have lexemesSame := take_lexemes stream
  rw [List.length_append, List.length_singleton, List.map_append] at lexemesSame
  rw [lexemesSame] at same
  obtain ⟨front, back, split, frontSame, backSame⟩ :=
    List.map_eq_append_iff.1 ((List.map_take ..).trans same)
  obtain ⟨next, nothing, rfl, nextSame, nil⟩ := List.map_eq_cons_iff.1 backSame
  cases List.map_eq_nil_iff.1 nil
  have length := congrArg List.length frontSame
  rw [List.length_map, List.length_map] at length
  refine ⟨front, next, (start other).stream.drop (used.length + 1), ?_, length,
    Token.map_gist_of_lexemes frontSame, Token.gist_eq_of_lexeme nextSame⟩
  rw [List.append_cons, ← split, List.take_append_drop]

/-! ### The earliest token -/

theorem Program.parse_eq_error {source : List Char} {error : ParseError}
    (failed : ((parse source).map fun _ => ()) = .error error) : parse source = .error error := by
  cases parsed : parse source with
  | ok program =>
    rw [parsed] at failed
    cases failed
  | error failure =>
    rw [parsed] at failed
    cases failed
    rfl

/-- Where the reader of a whole source decides to fail and blame a token, the parser does. -/
theorem Program.exists_parse_eq_error {source : List Char} {error : ParseError} {next : Token}
    {more : List Token} (halts : Reader.Halts next more (Reader.program (start source)))
    (decided : Reader.outcome (Reader.program (start source)) =
      Reader.outcome (.error error.bare))
    (blames : error.token?.isSome) :
    ∃ failure, parse source = .error failure ∧ failure.unplaced = error.unplaced ∧
      failure.token? = some next := by
  cases run : Reader.program (start source) with
  | ok result =>
    rw [run] at decided
    cases decided
  | error bare =>
    obtain ⟨failure, failed, rfl⟩ := Reader.exists_parse_eq_error run
    rw [run] at halts decided
    have reason : failure.unplaced = error.unplaced := by
      rw [← failure.unplaced_bare, ← error.unplaced_bare]
      exact Except.error.inj decided
    have blamesSome : failure.token?.isSome := by
      rw [← failure.isSome_token?_unplaced, reason, error.isSome_token?_unplaced]
      exact blames
    obtain ⟨mark, isMark⟩ := Option.isSome_iff_exists.1 blamesSome
    obtain rfl : mark = next := halts mark (by rw [ParseError.token?_bare, isMark]; rfl)
    exact ⟨failure, failed, reason, isMark⟩

/-- An error that blames a token for where it stands blames the first token that no program can have
there, and does so for what stands up to there: some program starts with the tokens before it, and
every source that starts with these and the token itself is refused for the same reason at the same
place. -/
theorem parse_blames_earliest_token {source : List Char} {error : ParseError} {token : Token}
    (failed : Program.parse source = .error error) (blamed : error.token? = some token) :
    ∃ index,
      (∀ place, (Program.start source).stream[place]? = some token ↔ place = index) ∧
      (∃ completed program, Program.parse completed = .ok program ∧
        (Program.lexemes completed).take index = (Program.lexemes source).take index) ∧
      ∀ other,
        (Program.lexemes other).take (index + 1) = (Program.lexemes source).take (index + 1) →
        ∃ failure mark, Program.parse other = .error failure ∧ failure.unplaced = error.unplaced ∧
          failure.token? = some mark ∧ (Program.start other).stream[index]? = some mark := by
  have run := Reader.program_eq_error failed
  obtain ⟨used, last, more, stream, halts, settled, completes, usable⟩ :=
    (Reader.serves_program _).foresees (Program.start source) (Nat.lt_succ_self _)
  rw [run] at halts settled
  obtain rfl : token = last := halts token (by rw [ParseError.token?_bare, blamed]; rfl)
  refine ⟨used.length, Program.getElem?_stream_inj stream, ?_, fun other agree => ?_⟩
  · have found : ∀ mark ∈ used, mark ∈ Token.ofText source := fun mark member =>
      Program.mem_ofText_of_mem_stream (stream ▸ List.mem_append_left _ member)
        (usable mark member)
    have ⟨filler, plain, accepts⟩ : ∃ filler : List Token.Kind, filler.all Token.Kind.isFiller ∧
        Reader.program.Accepts (used.map Token.gist ++ Token.gistsOf filler) (· == .endOfSource)
          fun _ => True := by
      cases used with
      | nil => exact ⟨[], rfl, (Reader.serves_program 0).accepts⟩
      | cons head used => exact completes (List.cons_ne_nil _ _)
    rw [Program.take_lexemes stream]
    exact Program.exists_completion found usable plain accepts
  · obtain ⟨copy, next, rest, otherStream, length, same, sameNext⟩ :=
      Program.exists_stream_of_lexemes stream agree
    obtain ⟨otherHalts, decided⟩ := settled otherStream same sameNext
    obtain ⟨failure, otherFailed, reason, blames⟩ :=
      Program.exists_parse_eq_error otherHalts decided (by rw [blamed]; rfl)
    refine ⟨failure, next, otherFailed, reason, blames, ?_⟩
    rw [otherStream, ← length, List.getElem?_append_right (Nat.le_refl _), Nat.sub_self]
    rfl

/-- The second of two equal signs is blamed, with a comment between them and a string behind. -/
theorem parse_blames_earliest_token_of_double_equal :
    ∃ error token,
      Program.parse "x = --[[ a ]] = 'b'".toList = .error error ∧ error.token? = some token ∧
      ∃ index,
        (∀ place, (Program.start "x = --[[ a ]] = 'b'".toList).stream[place]? = some token ↔
          place = index) ∧
        (∃ completed program, Program.parse completed = .ok program ∧
          (Program.lexemes completed).take index =
            (Program.lexemes "x = --[[ a ]] = 'b'".toList).take index) ∧
        ∀ other,
          (Program.lexemes other).take (index + 1) =
            (Program.lexemes "x = --[[ a ]] = 'b'".toList).take (index + 1) →
          ∃ failure mark, Program.parse other = .error failure ∧
            failure.unplaced = error.unplaced ∧ failure.token? = some mark ∧
            (Program.start other).stream[index]? = some mark := by
  have failed : Program.parse "x = --[[ a ]] = 'b'".toList =
      .error (.expectedExpression ⟨.symbol .equal, ['='], 14⟩) :=
    Program.parse_eq_error (by decide +kernel)
  exact ⟨_, _, failed, rfl, parse_blames_earliest_token failed rfl⟩

end LuaStyle
