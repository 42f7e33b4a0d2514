/-
This file says what it means that a reader decides early, and that sequences and choices of such
readers decide early as well.

A reader stops in front of a token: it goes on from there, or it blames that token. It works by
foresight if what it has read and the kind of that token decide which of the two happens, whatever
comes behind, and if what it has read can be completed to something the reader accepts. The second
half needs a supply: each reader is to read some filler, tokens that have one text or are names, in
front of the tokens it may stop at. So a sequence is completed by completing its first reader and
putting the filler of the second one behind.

A reader that calls itself does so behind a token it has read. Foresight is therefore stated for
cursors with fewer tokens than a bound, and a reader that uses a token raises the bound by one.
-/

import LuaStyle.Proofs.Recognition
import LuaStyle.Proofs.Transcription

namespace LuaStyle

/-! ### What readers see of tokens -/

/-- The token to blame, for the errors that blame a token for where it stands. -/
def ParseError.token? : ParseError → Option Token
  | expected _ token | expectedExpression token | expectedStatement token
  | unknownCharacter token | unterminatedString token | unterminatedComment token => some token
  | invalidNumber _ | invalidEscape _ | invalidAssignmentTarget _ => none

theorem ParseError.token?_bare (error : ParseError) : error.bare.token? = error.token? := by
  cases error <;> rfl

theorem ParseError.unplaced_bare (error : ParseError) : error.bare.unplaced = error.unplaced := by
  cases error <;> rfl

namespace Token

/-- What the grammar asks of a token: its kind and, of a literal, what is wrong with it. -/
def gist (token : Token) : Kind × Option ParseError :=
  (token.kind, token.fault?.map ParseError.unplaced)

/-- A token of the kind has one text or is a name. -/
def Kind.isFiller : Kind → Bool
  | .keyword _ | .symbol _ | .name => true
  | _ => false

/-- The grammar has a use for tokens of the kind. -/
def Kind.isUsable : Kind → Bool
  | .keyword _ | .symbol _ | .name | .number | .quotedString | .longString => true
  | _ => false

theorem Kind.isUsable_of_isFiller {kind : Kind} (plain : kind.isFiller) : kind.isUsable := by
  cases kind <;> first | rfl | cases plain

/-- What stands for a token is not the end of the source. -/
theorem Kind.ne_endOfSource {kind : Kind} (usable : kind.isUsable) : kind ≠ .endOfSource := by
  rintro rfl
  cases usable

/-- What the grammar asks of tokens of kinds that are not literals. -/
def gistsOf (kinds : List Kind) : List (Kind × Option ParseError) :=
  kinds.map fun kind => (kind, none)

end Token

/-- The tokens that follow, and the one that says that the source ends. -/
def Cursor.stream (cursor : Cursor) : List Token :=
  cursor.remaining ++ [⟨.endOfSource, [], cursor.sourceLength⟩]

theorem Cursor.current_of_stream {cursor : Cursor} {token : Token} {more : List Token}
    (stream : cursor.stream = token :: more) : cursor.current = token := by
  unfold Cursor.stream at stream
  unfold Cursor.current
  cases remaining : cursor.remaining with
  | nil =>
    rw [remaining] at stream
    exact (List.cons.inj stream).1
  | cons first rest =>
    rw [remaining] at stream
    exact (List.cons.inj stream).1

theorem Cursor.kind_of_stream {cursor : Cursor} {token : Token} {more : List Token}
    (stream : cursor.stream = token :: more) : cursor.kind = token.kind := by
  rw [Cursor.kind, current_of_stream stream]

/-- There is always something to look at, be it the end of the source. -/
theorem Cursor.exists_stream_eq_cons (cursor : Cursor) :
    ∃ more, cursor.stream = cursor.current :: more := by
  obtain ⟨token, more, stream⟩ : ∃ token more, cursor.stream = token :: more :=
    List.exists_cons_of_ne_nil (List.append_ne_nil_of_right_ne_nil _ (List.cons_ne_nil _ _))
  exact ⟨more, by rw [current_of_stream stream, stream]⟩

/-- The end of the source counts as one more than the tokens that are left. -/
theorem Cursor.size_eq (cursor : Cursor) : cursor.stream.length = cursor.size + 1 := by
  rw [Cursor.stream, List.length_append]
  rfl

namespace Reader

variable {Answer Result : Type}

/-! ### Where a reader stops -/

/-- What a reader decided: its answer, or its error apart from the place. -/
def outcome : Except ParseError (Answer × Cursor) → Except ParseError Answer
  | .ok (answer, _) => .ok answer
  | .error error => .error error.unplaced

/-- The reader stopped in front of the token: it goes on from there, or blames no other token. -/
def Halts (token : Token) (more : List Token) : Except ParseError (Answer × Cursor) → Prop
  | .ok (_, rest) => rest.stream = token :: more
  | .error error => ∀ blamed ∈ error.token?, blamed = token

/-- The reader reads tokens of which the grammar sees this, if a token of such a kind follows, and
answers well. -/
def Accepts (reader : Reader Answer) (gists : List (Token.Kind × Option ParseError))
    (stop : Token.Kind → Bool) (good : Answer → Prop) : Prop :=
  ∀ ⦃cursor : Cursor⦄ ⦃tokens : List Token⦄ ⦃token : Token⦄ ⦃more : List Token⦄,
    cursor.stream = tokens ++ token :: more → tokens.map Token.gist = gists → stop token.kind →
      ∃ answer rest, reader cursor = .ok (answer, rest) ∧ rest.stream = token :: more ∧ good answer

/-- The reader stops in front of the token. Where the tokens before it and the token itself look the
same it does so as well, and what it has read up to there can be completed. -/
structure ForeseesAt (reader : Reader Answer) (stop : Token.Kind → Bool) (good : Answer → Prop)
    (cursor : Cursor) (used : List Token) (token : Token) (more : List Token) : Prop where
  stream : cursor.stream = used ++ token :: more
  halts : Halts token more (reader cursor)
  settled : ∀ {other : Cursor} {copy : List Token} {next : Token} {rest : List Token},
    other.stream = copy ++ next :: rest → copy.map Token.gist = used.map Token.gist →
      next.gist = token.gist →
        Halts next rest (reader other) ∧ outcome (reader other) = outcome (reader cursor)
  completes : used ≠ [] → ∃ filler : List Token.Kind, filler.all Token.Kind.isFiller ∧
    reader.Accepts (used.map Token.gist ++ Token.gistsOf filler) stop good
  usable : ∀ mark ∈ used, mark.kind.isUsable

/-- Wherever fewer tokens than the bound follow, the reader decides by what it has read and by the
token in front of which it stops, and what it has read can be completed. -/
def Foresees (reader : Reader Answer) (bound : Nat) (stop : Token.Kind → Bool)
    (good : Answer → Prop) : Prop :=
  ∀ cursor : Cursor, cursor.size < bound →
    ∃ used token more, reader.ForeseesAt stop good cursor used token more

/-- What the first reader leaves in front of what it may stop at. -/
def Fits (between : Token.Kind → Bool) (filler : List Token.Kind) (stop : Token.Kind → Bool) :
    Prop :=
  match filler with
  | [] => ∀ kind, stop kind → between kind
  | kind :: _ => between kind

/-- The reader works by foresight, and reads the filler when there is nothing else for it to
read. -/
structure Serves (reader : Reader Answer) (bound : Nat) (filler : List Token.Kind)
    (stop : Token.Kind → Bool) (good : Answer → Prop) : Prop where
  foresees : reader.Foresees bound stop good
  accepts : reader.Accepts (Token.gistsOf filler) stop good
  plain : filler.all Token.Kind.isFiller

/-! ### Sequences -/

section

variable {first : Reader Answer} {further : Answer → Reader Result}
  {between stop : Token.Kind → Bool} {passing : Answer → Prop} {good : Result → Prop}

/-- A sequence goes on with what its first part answers. -/
theorem bind_of_ok {cursor rest : Cursor} {answer : Answer}
    (read : first cursor = .ok (answer, rest)) :
    (first >>= further) cursor = further answer rest := by
  change (first cursor >>= fun read => further read.1 read.2) = _
  rw [read]
  rfl

/-- A sequence fails where its first part does. -/
theorem bind_of_error {cursor : Cursor} {error : ParseError}
    (failed : first cursor = .error error) : (first >>= further) cursor = .error error := by
  change (first cursor >>= fun read => further read.1 read.2) = _
  rw [failed]
  rfl

/-- What two readers accept one after the other, their sequence accepts. -/
theorem Accepts.bind {gists : List (Token.Kind × Option ParseError)} {filler : List Token.Kind}
    (before : first.Accepts gists between passing)
    (after : ∀ answer, passing answer → (further answer).Accepts (Token.gistsOf filler) stop good)
    (fits : Fits between filler stop) :
    (first >>= further).Accepts (gists ++ Token.gistsOf filler) stop good := by
  intro cursor tokens token more stream same stops
  obtain ⟨left, right, rfl, leftSame, rightSame⟩ := List.map_eq_append_iff.1 same
  cases filler with
  | nil =>
    cases List.map_eq_nil_iff.1 rightSame
    rw [List.append_nil] at stream
    obtain ⟨answer, rest, read, remaining, passes⟩ := before stream leftSame (fits _ stops)
    rw [bind_of_ok read]
    exact after answer passes (show rest.stream = [] ++ token :: more from remaining) rfl stops
  | cons kind filler =>
    obtain ⟨mark, right, rfl, markSame, -⟩ := List.map_eq_cons_iff.1 rightSame
    rw [List.append_assoc, List.cons_append] at stream
    have kindSame : mark.kind = kind := congrArg Prod.fst markSame
    obtain ⟨answer, rest, read, remaining, passes⟩ :=
      before stream leftSame (by rw [kindSame]; exact fits)
    rw [bind_of_ok read]
    exact after answer passes remaining rightSame stops

/-- The first token of two streams that look the same up to a token looks the same. -/
theorem exists_cons_of_gists {used copy behind tail more : List Token} {token head : Token}
    (same : copy.map Token.gist = used.map Token.gist)
    (sameNext : used = [] → ∃ next rest, behind = next :: rest ∧ next.gist = token.gist)
    (stream : head :: tail = used ++ token :: more) :
    ∃ headCopy tailCopy, copy ++ behind = headCopy :: tailCopy ∧ headCopy.gist = head.gist := by
  cases used with
  | nil =>
    cases List.map_eq_nil_iff.1 same
    cases stream
    exact sameNext rfl
  | cons usedHead used =>
    obtain ⟨copyHead, copy, rfl, headSame, -⟩ := List.map_eq_cons_iff.1 same
    cases stream
    exact ⟨copyHead, copy ++ behind, rfl, headSame⟩

section

variable {cursor rest : Cursor} {answer : Answer} {used more restUsed remaining : List Token}
  {token last : Token}

/-- A sequence whose first reader fails stops where that one does. -/
theorem ForeseesAt.bind_of_error {error : ParseError}
    (before : first.ForeseesAt between passing cursor used token more)
    (read : first cursor = .error error)
    (supplied : used ≠ [] → ∃ filler : List Token.Kind, filler.all Token.Kind.isFiller ∧
      (first >>= further).Accepts (used.map Token.gist ++ Token.gistsOf filler) stop good) :
    (first >>= further).ForeseesAt stop good cursor used token more := by
  obtain ⟨stream, halts, settled, -, usable⟩ := before
  rw [read] at halts settled
  refine ⟨stream, ?_, fun otherStream same sameNext => ?_, supplied, usable⟩
  · rw [Reader.bind_of_error read]
    exact halts
  · obtain ⟨otherHalts, decided⟩ := settled otherStream same sameNext
    rw [Reader.bind_of_error read]
    cases otherRead : first _ with
    | ok result =>
      rw [otherRead] at decided
      cases decided
    | error failure =>
      rw [otherRead] at otherHalts decided
      rw [Reader.bind_of_error otherRead]
      exact ⟨otherHalts, congrArg Except.error (Except.error.inj decided)⟩

/-- The first reader answers alike wherever what both readers use looks the same. The second one may
use nothing, and then its token is the one in front of which the first one stopped. -/
theorem ForeseesAt.answers_alike
    (before : first.ForeseesAt between passing cursor used token more)
    (read : first cursor = .ok (answer, rest)) (whole : rest.stream = restUsed ++ last :: remaining)
    {other : Cursor} {copy restCopy behind : List Token}
    (otherStream : other.stream = copy ++ (restCopy ++ behind))
    (same : copy.map Token.gist = used.map Token.gist)
    (restSame : restCopy.map Token.gist = restUsed.map Token.gist)
    (markSame : restUsed = [] → ∃ mark tail, behind = mark :: tail ∧ mark.gist = last.gist) :
    ∃ otherRest, first other = .ok (answer, otherRest) ∧ otherRest.stream = restCopy ++ behind := by
  obtain ⟨-, halts, settled, -, -⟩ := before
  rw [read] at halts settled
  obtain ⟨head, others, split, headSame⟩ :=
    exists_cons_of_gists restSame markSame (halts.symm.trans whole)
  rw [split] at otherStream ⊢
  obtain ⟨otherHalts, decided⟩ := settled otherStream same headSame
  cases otherRead : first other with
  | error failure =>
    rw [otherRead] at decided
    cases decided
  | ok found =>
    rw [otherRead] at otherHalts decided
    cases Except.ok.inj decided
    exact ⟨found.2, rfl, otherHalts⟩

/-- A sequence whose first reader goes on uses what both readers use. -/
theorem ForeseesAt.bind_of_ok
    (before : first.ForeseesAt between passing cursor used token more)
    (read : first cursor = .ok (answer, rest))
    (after : (further answer).ForeseesAt stop good rest restUsed last remaining)
    (supplied : used ≠ [] → ∃ filler : List Token.Kind, filler.all Token.Kind.isFiller ∧
      (first >>= further).Accepts (used.map Token.gist ++ Token.gistsOf filler) stop good) :
    (first >>= further).ForeseesAt stop good cursor (used ++ restUsed) last remaining := by
  have whole : token :: more = restUsed ++ last :: remaining := by
    have halts := before.halts
    rw [read] at halts
    exact halts.symm.trans after.stream
  refine ⟨?_, ?_, ?_, ?_, List.forall_mem_append.2 ⟨before.usable, after.usable⟩⟩
  · rw [before.stream, whole, List.append_assoc]
  · rw [Reader.bind_of_ok read]
    exact after.halts
  · intro other copy mark tail otherStream same sameMark
    rw [List.map_append] at same
    obtain ⟨left, right, rfl, leftSame, rightSame⟩ := List.map_eq_append_iff.1 same
    rw [List.append_assoc] at otherStream
    obtain ⟨otherRest, otherRead, otherRemaining⟩ :=
      before.answers_alike read after.stream otherStream leftSame rightSame
        fun _ => ⟨mark, tail, rfl, sameMark⟩
    rw [Reader.bind_of_ok read, Reader.bind_of_ok otherRead]
    exact after.settled otherRemaining rightSame sameMark
  · intro nonempty
    cases restUsed with
    | nil =>
      rw [List.append_nil] at nonempty ⊢
      exact supplied nonempty
    | cons head restUsed =>
      obtain ⟨start, startPlain, accepts⟩ := after.completes (List.cons_ne_nil _ _)
      refine ⟨start, startPlain, ?_⟩
      intro other tokens mark tail otherStream same stops
      rw [List.map_append, List.append_assoc] at same
      obtain ⟨left, right, rfl, leftSame, rightSame⟩ := List.map_eq_append_iff.1 same
      obtain ⟨middle, added, rfl, middleSame, -⟩ := List.map_eq_append_iff.1 rightSame
      rw [List.append_assoc, List.append_assoc] at otherStream
      obtain ⟨otherRest, otherRead, otherRemaining⟩ :=
        before.answers_alike read after.stream otherStream leftSame middleSame
          fun empty => absurd empty (List.cons_ne_nil _ _)
      rw [Reader.bind_of_ok otherRead]
      rw [← List.append_assoc] at otherRemaining
      exact accepts otherRemaining rightSame stops

end

/-- A sequence works by foresight if both readers do, and if what can follow the first reader starts
what the second one reads when there is nothing else for it to read. -/
theorem Foresees.bindWith {bound later : Nat} {filler : List Token.Kind}
    (before : first.Foresees bound between passing)
    (shorter : ∀ cursor answer rest, cursor.size < bound → first cursor = .ok (answer, rest) →
      rest.size < later)
    (after : ∀ answer, (further answer).Foresees later stop good)
    (supply : ∀ answer, passing answer → (further answer).Accepts (Token.gistsOf filler) stop good)
    (plain : filler.all Token.Kind.isFiller) (fits : Fits between filler stop) :
    (first >>= further).Foresees bound stop good := by
  intro cursor within
  obtain ⟨used, token, more, foresees⟩ := before cursor within
  have supplied : used ≠ [] → ∃ filler : List Token.Kind, filler.all Token.Kind.isFiller ∧
      (first >>= further).Accepts (used.map Token.gist ++ Token.gistsOf filler) stop good := by
    intro nonempty
    obtain ⟨start, startPlain, accepts⟩ := foresees.completes nonempty
    refine ⟨start ++ filler, ?_, ?_⟩
    · rw [List.all_append, startPlain, plain]
      rfl
    · rw [Token.gistsOf, List.map_append, ← List.append_assoc]
      exact accepts.bind supply fits
  cases read : first cursor with
  | error error => exact ⟨used, token, more, foresees.bind_of_error read supplied⟩
  | ok result =>
    obtain ⟨answer, rest⟩ := result
    obtain ⟨restUsed, last, remaining, others⟩ :=
      after answer rest (shorter cursor answer rest within read)
    exact ⟨used ++ restUsed, last, remaining, foresees.bind_of_ok read others supplied⟩

/-- A reader does not end before where it started. -/
theorem ForeseesAt.size_le {reader : Reader Answer} {good : Answer → Prop} {cursor rest : Cursor}
    {used more : List Token} {token : Token} {answer : Answer}
    (foresees : reader.ForeseesAt stop good cursor used token more)
    (read : reader cursor = .ok (answer, rest)) : rest.size ≤ cursor.size := by
  have halts := foresees.halts
  rw [read] at halts
  have length : rest.stream.length ≤ cursor.stream.length := by
    rw [foresees.stream, show rest.stream = token :: more from halts, List.length_append]
    omega
  rw [rest.size_eq, cursor.size_eq] at length
  omega

/-- A sequence works by foresight if both readers do and what the first one can be completed to is
what the second one needs. -/
theorem Foresees.bind_passing {bound : Nat} {filler : List Token.Kind}
    (before : first.Foresees bound between passing)
    (after : ∀ answer, (further answer).Foresees bound stop good)
    (supply : ∀ answer, passing answer →
      (further answer).Accepts (Token.gistsOf filler) stop good)
    (plain : filler.all Token.Kind.isFiller) (fits : Fits between filler stop) :
    (first >>= further).Foresees bound stop good := by
  refine before.bindWith (fun cursor answer rest within read => ?_) after supply plain fits
  obtain ⟨used, token, more, foresees⟩ := before cursor within
  exact Nat.lt_of_le_of_lt (foresees.size_le read) within

/-- A sequence foresees what follows if its parts do and the second is served by a filler. -/
theorem Foresees.bind [Nonempty Answer] {bound : Nat} {filler : List Token.Kind}
    (before : first.Foresees bound between passing)
    (after : ∀ answer, (further answer).Serves bound filler stop good)
    (fits : Fits between filler stop) : (first >>= further).Foresees bound stop good := by
  obtain ⟨sample⟩ := ‹Nonempty Answer›
  exact before.bind_passing (fun answer => (after answer).foresees)
    (fun answer _ => (after answer).accepts) (after sample).plain fits

/-- Every answer of the reader has cost it a token. -/
def Consumes (reader : Reader Answer) : Prop :=
  ∀ ⦃cursor answer rest⦄, reader cursor = .ok (answer, rest) → rest.size < cursor.size

/-- Behind a reader that uses a token there are fewer tokens to be looked at. -/
theorem Foresees.next_passing {bound : Nat} {filler : List Token.Kind}
    (before : first.Foresees (bound + 1) between passing) (consumes : first.Consumes)
    (after : ∀ answer, (further answer).Foresees bound stop good)
    (supply : ∀ answer, passing answer →
      (further answer).Accepts (Token.gistsOf filler) stop good)
    (plain : filler.all Token.Kind.isFiller) (fits : Fits between filler stop) :
    (first >>= further).Foresees (bound + 1) stop good := by
  refine before.bindWith (fun cursor answer rest within read => ?_) after supply plain fits
  have shorter := consumes read
  omega

/-- Behind a reader that takes a token, a smaller bound is enough. -/
theorem Foresees.next [Nonempty Answer] {bound : Nat} {filler : List Token.Kind}
    (before : first.Foresees (bound + 1) between passing) (consumes : first.Consumes)
    (after : ∀ answer, (further answer).Serves bound filler stop good)
    (fits : Fits between filler stop) : (first >>= further).Foresees (bound + 1) stop good := by
  obtain ⟨sample⟩ := ‹Nonempty Answer›
  exact before.next_passing consumes (fun answer => (after answer).foresees)
    (fun answer _ => (after answer).accepts) (after sample).plain fits

/-- Fillers of two readers, one after the other, are a filler of their sequence. -/
theorem Serves.bind [Nonempty Answer] {bound : Nat} {start filler : List Token.Kind}
    (before : first.Serves bound start between passing)
    (after : ∀ answer, (further answer).Serves bound filler stop good)
    (fits : Fits between filler stop) :
    (first >>= further).Serves bound (start ++ filler) stop good := by
  obtain ⟨sample⟩ := ‹Nonempty Answer›
  refine ⟨before.foresees.bind after fits, ?_, ?_⟩
  · rw [Token.gistsOf, List.map_append]
    exact before.accepts.bind (fun answer _ => (after answer).accepts) fits
  · rw [List.all_append, before.plain, (after sample).plain]
    rfl

end

/-! ### Elementary readers -/

section

variable {stop : Token.Kind → Bool}

/-- What reads nothing looks at nothing. -/
theorem foresees_pure {bound : Nat} {good : Answer → Prop} (answer : Answer) :
    Foresees (pure answer) bound stop good := by
  intro cursor _
  obtain ⟨more, stream⟩ := cursor.exists_stream_eq_cons
  refine ⟨[], cursor.current, more, stream, stream, ?_, fun nonempty => absurd rfl nonempty,
    List.forall_mem_nil _⟩
  intro other copy next rest otherStream same _
  cases List.map_eq_nil_iff.1 same
  exact ⟨otherStream, rfl⟩

/-- What reads nothing accepts no tokens at all. -/
theorem accepts_pure {good : Answer → Prop} {answer : Answer} (isGood : good answer) :
    Accepts (pure answer) (Token.gistsOf []) stop good := by
  intro cursor tokens token more stream same _
  cases List.map_eq_nil_iff.1 same
  exact ⟨answer, cursor, rfl, stream, isGood⟩

/-- There is nothing to foresee where fewer than no tokens follow. -/
theorem foresees_zero {reader : Reader Answer} {good : Answer → Prop} :
    reader.Foresees 0 stop good :=
  fun _ impossible => absurd impossible (Nat.not_lt_zero _)

/-- The error blames the token it is about, and says nothing else of it than its kind. -/
structure IsBlame (cause : Token → ParseError) : Prop where
  token : ∀ token, (cause token).token? = some token
  kind : ∀ token other, token.kind = other.kind → (cause token).unplaced = (cause other).unplaced

theorem isBlame_expected (kind : Token.Kind) : IsBlame (.expected kind) :=
  ⟨fun _ => rfl, fun _ _ same => by rw [ParseError.unplaced, ParseError.unplaced, same]⟩

theorem isBlame_expectedExpression : IsBlame .expectedExpression :=
  ⟨fun _ => rfl, fun _ _ same => by rw [ParseError.unplaced, ParseError.unplaced, same]⟩

theorem isBlame_expectedStatement : IsBlame .expectedStatement :=
  ⟨fun _ => rfl, fun _ _ same => by rw [ParseError.unplaced, ParseError.unplaced, same]⟩

/-- What blames the next token names it. -/
theorem IsBlame.token?_unexpected {cause : Token → ParseError} (isBlame : IsBlame cause)
    (cursor : Cursor) : (cursor.unexpected cause).token? = some cursor.current := by
  unfold Cursor.unexpected
  split
  · rfl
  · rfl
  · rfl
  · exact isBlame.token _

/-- Blame is the same wherever the next token is of the same kind. -/
theorem IsBlame.unplaced_unexpected {cause : Token → ParseError} (isBlame : IsBlame cause)
    {cursor other : Cursor} (same : other.kind = cursor.kind) :
    (other.unexpected cause).unplaced = (cursor.unexpected cause).unplaced := by
  have tokenSame : other.current.kind = cursor.current.kind := same
  unfold Cursor.unexpected
  rw [same]
  split
  · rw [ParseError.unplaced, ParseError.unplaced, tokenSame]
  · rw [ParseError.unplaced, ParseError.unplaced, tokenSame]
  · rw [ParseError.unplaced, ParseError.unplaced, tokenSame]
  · exact isBlame.kind _ _ tokenSame

/-- A reader that fails at a token whatever its kind is stops in front of it. -/
theorem foreseesAt_of_fail {reader : Reader Answer} {good : Answer → Prop} {cursor : Cursor}
    {cause : Token → ParseError} (isBlame : IsBlame cause)
    (fails : ∀ other : Cursor, other.kind = cursor.kind → reader other = fail cause other) :
    ∃ used token more, reader.ForeseesAt stop good cursor used token more := by
  obtain ⟨more, stream⟩ := cursor.exists_stream_eq_cons
  refine ⟨[], cursor.current, more, stream, ?_, ?_, fun nonempty => absurd rfl nonempty,
    List.forall_mem_nil _⟩
  · rw [fails cursor rfl]
    intro blamed isBlamed
    rw [ParseError.token?_bare, isBlame.token?_unexpected] at isBlamed
    exact (Option.some.inj isBlamed).symm
  · intro other copy next rest otherStream same sameNext
    cases List.map_eq_nil_iff.1 same
    have current := Cursor.current_of_stream otherStream
    have kind : other.kind = cursor.kind := by
      rw [Cursor.kind, current]
      exact congrArg Prod.fst sameNext
    rw [fails cursor rfl, fails other kind]
    refine ⟨?_, ?_⟩
    · intro blamed isBlamed
      rw [ParseError.token?_bare, isBlame.token?_unexpected, current] at isBlamed
      exact (Option.some.inj isBlamed).symm
    · change Except.error (ParseError.unplaced _) = Except.error (ParseError.unplaced _)
      rw [ParseError.unplaced_bare, ParseError.unplaced_bare, isBlame.unplaced_unexpected kind]

/-- A reader that always blames the next token foresees what follows. -/
theorem foresees_fail {bound : Nat} {good : Answer → Prop} {cause : Token → ParseError}
    (isBlame : IsBlame cause) : Foresees (fail cause) bound stop good :=
  fun _ _ => foreseesAt_of_fail isBlame fun _ _ => rfl

/-- Readers follow one another anywhere. -/
def anything : Token.Kind → Bool := fun _ => true

/-- An error that blames no token for where it stands is of no matter. -/
theorem halts_of_blameless {error : ParseError} (blameless : error.token? = none) {token : Token}
    {more : List Token} :
    Halts token more (.error error : Except ParseError (Answer × Cursor)) := by
  intro blamed isBlamed
  rw [blameless] at isBlamed
  cases isBlamed

/-- A failure that is not about the next token is foreseen. -/
theorem foresees_error {bound : Nat} {good : Answer → Prop} {error : ParseError}
    (blameless : error.token? = none) :
    Foresees (fun _ => .error error) bound stop good := by
  intro cursor _
  obtain ⟨more, stream⟩ := cursor.exists_stream_eq_cons
  exact ⟨[], cursor.current, more, stream, halts_of_blameless blameless,
    fun _ _ _ => ⟨halts_of_blameless blameless, rfl⟩, fun nonempty => absurd rfl nonempty,
    List.forall_mem_nil _⟩

/-- A token of the kind that is not the last one is read. -/
theorem expect_of_stream {kind : Token.Kind} {cursor : Cursor} {token next : Token}
    {more : List Token} (stream : cursor.stream = token :: next :: more)
    (same : token.kind = kind) :
    ∃ rest, expect kind cursor = .ok ((), rest) ∧ rest.stream = next :: more := by
  obtain ⟨tail, remaining, after⟩ : ∃ tail, cursor.remaining = token :: tail ∧
      tail ++ [⟨.endOfSource, [], cursor.sourceLength⟩] = next :: more := by
    unfold Cursor.stream at stream
    cases remaining : cursor.remaining with
    | nil =>
      rw [remaining] at stream
      cases (List.cons.inj stream).2
    | cons head tail =>
      rw [remaining] at stream
      obtain ⟨rfl, after⟩ := List.cons.inj stream
      exact ⟨tail, rfl, after⟩
  have step : cursor.Steps [token] ⟨tail, token.stop, cursor.sourceLength⟩ :=
    ⟨remaining, rfl, rfl⟩
  obtain ⟨_, accepted⟩ := step.accept?_eq
  rw [same] at accepted
  exact ⟨_, expect_of_accept? accepted, after⟩

/-- A token of another kind than asked for is blamed. -/
theorem expect_of_kind_ne {kind : Token.Kind} {cursor : Cursor} (different : cursor.kind ≠ kind) :
    expect kind cursor = fail (.expected kind) cursor := by
  rw [expect, ← skip_apply, Cursor.expect, Cursor.Steps.accept?_eq_none different]
  rfl

/-- A token of the kind that is asked for is accepted. -/
theorem accepts_expect (kind : Token.Kind) (fault : Option ParseError) :
    (expect kind).Accepts [(kind, fault)] stop fun _ => True := by
  intro cursor tokens token more stream same _
  obtain ⟨mark, tail, rfl, markSame, nil⟩ := List.map_eq_cons_iff.1 same
  cases List.map_eq_nil_iff.1 nil
  obtain ⟨rest, read, restStream⟩ := expect_of_stream stream (congrArg Prod.fst markSame)
  exact ⟨(), rest, read, restStream, trivial⟩

/-- A reader of one token looks at no other. -/
theorem foresees_expect {kind : Token.Kind} (usable : kind.isUsable) {bound : Nat} :
    (expect kind).Foresees bound stop fun _ => True := by
  intro cursor _
  by_cases same : cursor.kind = kind
  · obtain ⟨more, stream⟩ := cursor.exists_stream_eq_cons
    cases more with
    | nil =>
      -- then the token that follows is the one that says that the source ends
      obtain ⟨-, ended⟩ := List.append_eq_singleton_iff.1 stream |>.resolve_right
        fun both => absurd both.2 (List.cons_ne_nil _ _)
      have kind := congrArg Token.kind (List.cons.inj ended).1
      exact absurd (same.symm.trans kind.symm) (Token.Kind.ne_endOfSource usable)
    | cons next more =>
    obtain ⟨rest, read, restStream⟩ := expect_of_stream stream same
    refine ⟨[cursor.current], next, more, stream, ?_, ?_, fun _ => ⟨[], rfl, ?_⟩,
      List.forall_mem_singleton.2 (by rwa [← Cursor.kind, same])⟩
    · rw [read]
      exact restStream
    · intro other copy mark tail otherStream alike _
      obtain ⟨head, rest, rfl, headSame, nil⟩ := List.map_eq_cons_iff.1 alike
      cases List.map_eq_nil_iff.1 nil
      have headKind : head.kind = kind := (congrArg Prod.fst headSame).trans same
      obtain ⟨otherRest, otherRead, otherRestStream⟩ := expect_of_stream otherStream headKind
      rw [read, otherRead]
      exact ⟨otherRestStream, rfl⟩
    · rw [← same]
      exact accepts_expect _ _
  · exact foreseesAt_of_fail (isBlame_expected kind) fun other otherSame =>
      expect_of_kind_ne (otherSame ▸ same)

/-- A function of the grammar whose bound is the size of its cursor uses a token. -/
theorem consumes_of {Value : Type} {answer : Value → Answer}
    {run : (cursor : Cursor) → Except ParseError (Parsed cursor.size Value)} :
    Consumes (of answer run) := by
  intro cursor found rest read
  rw [of] at read
  cases result : run cursor with
  | error error =>
    rw [result] at read
    cases read
  | ok parsed =>
    rw [result] at read
    cases read
    exact parsed.within

theorem consumes_skip {Value : Type}
    {run : (cursor : Cursor) → Except ParseError (Parsed cursor.size Value)} :
    Consumes (skip run) := consumes_of

/-- Readers may stop at less. -/
theorem Accepts.mono {reader : Reader Answer} {gists : List (Token.Kind × Option ParseError)}
    {fewer : Token.Kind → Bool} {good : Answer → Prop} (accepts : reader.Accepts gists stop good)
    (stops : ∀ kind, fewer kind → stop kind) : reader.Accepts gists fewer good :=
  fun _ _ _ _ stream same isStop => accepts stream same (stops _ isStop)

/-- What foresees every follower of one set does so for those of a smaller one. -/
theorem Foresees.mono {reader : Reader Answer} {bound : Nat} {fewer : Token.Kind → Bool}
    {good : Answer → Prop} (foresees : reader.Foresees bound stop good)
    (stops : ∀ kind, fewer kind → stop kind) : reader.Foresees bound fewer good := by
  intro cursor within
  obtain ⟨used, token, more, stream, halts, settled, completes, usable⟩ := foresees cursor within
  refine ⟨used, token, more, stream, halts, settled, fun nonempty => ?_, usable⟩
  obtain ⟨filler, plain, accepts⟩ := completes nonempty
  exact ⟨filler, plain, accepts.mono stops⟩

/-- Where two streams look the same up to a token, their first tokens look the same. -/
theorem gist_eq_of_streams {cursor other : Cursor} {used copy more rest : List Token}
    {token next : Token} (stream : cursor.stream = used ++ token :: more)
    (otherStream : other.stream = copy ++ next :: rest)
    (same : copy.map Token.gist = used.map Token.gist) (sameNext : next.gist = token.gist) :
    other.current.gist = cursor.current.gist := by
  obtain ⟨tail, headStream⟩ := cursor.exists_stream_eq_cons
  obtain ⟨head, others, split, headSame⟩ :=
    exists_cons_of_gists same (fun _ => ⟨next, rest, rfl, sameNext⟩)
      (headStream.symm.trans stream)
  rwa [Cursor.current_of_stream (otherStream.trans split)]

/-- Readers that do the same wherever the next token looks the same stop at the same place. -/
theorem ForeseesAt.congr {reader twin : Reader Answer} {good : Answer → Prop} {cursor : Cursor}
    {used more : List Token} {token : Token}
    (foresees : reader.ForeseesAt stop good cursor used token more)
    (agree : ∀ other : Cursor, other.current.gist = cursor.current.gist →
      twin other = reader other) :
    twin.ForeseesAt stop good cursor used token more := by
  obtain ⟨stream, halts, settled, completes, usable⟩ := foresees
  refine ⟨stream, ?_, fun otherStream same sameNext => ?_, fun nonempty => ?_, usable⟩
  · rw [agree cursor rfl]
    exact halts
  · rw [agree _ (gist_eq_of_streams stream otherStream same sameNext), agree cursor rfl]
    exact settled otherStream same sameNext
  · obtain ⟨filler, plain, accepts⟩ := completes nonempty
    refine ⟨filler, plain, fun other tokens mark tail otherStream same isStop => ?_⟩
    obtain ⟨head, used, rfl⟩ := List.exists_cons_of_ne_nil nonempty
    obtain ⟨first, rest, rfl, firstSame, -⟩ := List.map_eq_cons_iff.1 same
    have gist : other.current.gist = cursor.current.gist := by
      rw [Cursor.current_of_stream otherStream, Cursor.current_of_stream stream, firstSame]
    rw [agree other gist]
    exact accepts otherStream same isStop

/-- To look at the kind of the next token is to look no further than where the reader stops. -/
theorem Foresees.look {next : Token.Kind → Reader Answer} {bound : Nat} {good : Answer → Prop}
    (foresees : ∀ kind, (next kind).Foresees bound stop good) :
    (look next).Foresees bound stop good := by
  intro cursor within
  obtain ⟨used, token, more, foreseesAt⟩ := foresees cursor.kind cursor within
  refine ⟨used, token, more, foreseesAt.congr fun other same => ?_⟩
  have kind : other.kind = cursor.kind := congrArg Prod.fst same
  rw [Reader.look, kind]

/-- A choice accepts what the reader chosen for the first token accepts. -/
theorem Accepts.look_cons {next : Token.Kind → Reader Answer} {good : Answer → Prop}
    {kind : Token.Kind} {fault : Option ParseError}
    {gists : List (Token.Kind × Option ParseError)}
    (accepts : (next kind).Accepts ((kind, fault) :: gists) stop good) :
    (Reader.look next).Accepts ((kind, fault) :: gists) stop good := by
  intro cursor tokens token more stream same isStop
  obtain ⟨first, rest, rfl, firstSame, -⟩ := List.map_eq_cons_iff.1 same
  have firstKind : cursor.kind = kind := by
    rw [Cursor.kind_of_stream stream]
    exact congrArg Prod.fst firstSame
  rw [Reader.look, firstKind]
  exact accepts stream same isStop

/-- A choice may read nothing where it does so for everything that may follow. -/
theorem Accepts.look_nil {next : Token.Kind → Reader Answer} {good : Answer → Prop}
    (accepts : ∀ kind, stop kind → (next kind).Accepts (Token.gistsOf []) stop good) :
    (Reader.look next).Accepts (Token.gistsOf []) stop good := by
  intro cursor tokens token more stream same isStop
  cases List.map_eq_nil_iff.1 same
  rw [Reader.look, Cursor.kind_of_stream stream]
  exact accepts token.kind isStop stream rfl isStop

theorem errorOf?_token? {run : Except ParseError Literal} {error : ParseError}
    (blameless : ∀ failure, run = .error failure → failure.token? = none)
    (found : Token.fault?.errorOf? run = some error) : error.token? = none := by
  cases run with
  | ok constant => cases found
  | error failure =>
    cases found
    rw [ParseError.token?_bare]
    exact blameless failure rfl

/-- What is wrong with a literal is not where it stands. -/
theorem fault?_token? {token : Token} {error : ParseError} (fault : token.fault? = some error) :
    error.token? = none := by
  have number : ∀ failure, Grammar.numberLiteral token = .error failure →
      failure.token? = none := by
    intro failure failed
    unfold Grammar.numberLiteral at failed
    split at failed <;> cases failed
    rfl
  have string : ∀ failure, Grammar.stringLiteral token = .error failure →
      failure.token? = none := by
    intro failure failed
    unfold Grammar.stringLiteral at failed
    split at failed
    · cases failed
    · split at failed <;> cases failed
      rfl
  unfold Token.fault? at fault
  split at fault
  · exact errorOf?_token? number fault
  · exact errorOf?_token? string fault
  · exact errorOf?_token? string fault
  · cases fault

/-- A literal is read from one token alone. -/
theorem foresees_literal {kind : Token.Kind} (usable : kind.isUsable) {bound : Nat} :
    (literal kind).Foresees bound stop fun _ => True := by
  intro cursor within
  cases fault : cursor.current.fault? with
  | none =>
    have foresees : (expect kind).Foresees bound stop fun _ => True := foresees_expect usable
    obtain ⟨used, token, more, foreseesAt⟩ := foresees cursor within
    refine ⟨used, token, more, foreseesAt.congr fun other same => ?_⟩
    have otherFault := congrArg Prod.snd same
    rw [Token.gist, Token.gist, fault] at otherFault
    rw [literal, Option.map_eq_none_iff.1 otherFault]
  | some error =>
    obtain ⟨more, stream⟩ := cursor.exists_stream_eq_cons
    have failed : literal kind cursor = .error error := by rw [literal, fault]
    refine ⟨[], cursor.current, more, stream, ?_, fun otherStream same sameNext => ?_,
      fun nonempty => absurd rfl nonempty, List.forall_mem_nil _⟩
    · rw [failed]
      exact halts_of_blameless (fault?_token? fault)
    · have gist := congrArg Prod.snd (gist_eq_of_streams stream otherStream same sameNext)
      rw [Token.gist, Token.gist, fault] at gist
      obtain ⟨failure, otherFault, unplaced⟩ := Option.map_eq_some_iff.1 gist
      rw [failed, literal, otherFault]
      exact ⟨halts_of_blameless (fault?_token? otherFault), congrArg Except.error unplaced⟩

/-! ### Choices -/

theorem fits_anything (filler : List Token.Kind) : Fits anything filler stop := by
  cases filler with
  | nil => exact fun _ _ => rfl
  | cons kind filler => rfl

section

variable {bound : Nat} {filler : List Token.Kind} {good : Answer → Prop} {kind : Token.Kind}
  {behind here : Reader Answer}

/-- Behind a token that has to come there are fewer tokens to be looked at. -/
theorem Foresees.afterToken (usable : kind.isUsable)
    (after : behind.Serves bound filler stop good) :
    (do expect kind; behind : Reader Answer).Foresees (bound + 1) stop good :=
  (foresees_expect usable).next consumes_skip (fun _ => after) (fits_anything filler)

/-- A token in front of a reader is added to its filler. -/
theorem Serves.afterToken (plain : kind.isFiller) (after : behind.Serves bound filler stop good) :
    (do expect kind; behind : Reader Answer).Serves bound (kind :: filler) stop good := by
  refine ⟨?_, ?_, ?_⟩
  · exact (foresees_expect (Token.Kind.isUsable_of_isFiller plain)).bind (fun _ => after)
      (fits_anything filler)
  · exact (accepts_expect kind none).bind (fun _ _ => after.accepts) (fits_anything filler)
  · rw [List.all_cons, plain, after.plain]
    rfl

theorem serves_expect (plain : kind.isFiller) :
    (expect kind).Serves bound [kind] stop fun _ => True := by
  refine ⟨foresees_expect (Token.Kind.isUsable_of_isFiller plain), accepts_expect kind none, ?_⟩
  rw [List.all_cons, plain]
  rfl

theorem Serves.mono {reader : Reader Answer} {fewer : Token.Kind → Bool}
    (serves : reader.Serves bound filler stop good) (stops : ∀ kind, fewer kind → stop kind) :
    reader.Serves bound filler fewer good :=
  ⟨serves.foresees.mono stops, serves.accepts.mono stops, serves.plain⟩

theorem serves_pure {answer : Answer} (isGood : good answer) :
    Serves (pure answer) bound [] stop good :=
  ⟨foresees_pure answer, accepts_pure isGood, rfl⟩

/-- A choice works by foresight if both ways to go on do. Behind the token there are fewer tokens to
be looked at. -/
theorem Foresees.ifNext_succ (usable : kind.isUsable)
    (behindServes : behind.Serves bound filler stop good)
    (hereForesees : here.Foresees (bound + 1) stop good) :
    (ifNext kind behind here).Foresees (bound + 1) stop good := by
  refine .look fun next => ?_
  split
  · exact .afterToken usable behindServes
  · exact hereForesees

/-- The same for a choice in which no token has been used yet. -/
theorem Foresees.ifNext (usable : kind.isUsable)
    (behindServes : behind.Serves bound filler stop good)
    (hereForesees : here.Foresees bound stop good) :
    (ifNext kind behind here).Foresees bound stop good := by
  refine .look fun next => ?_
  split
  · exact (foresees_expect usable).bind (fun _ => behindServes) (fits_anything filler)
  · exact hereForesees

/-- Two readers accept their fillers one behind the other. -/
theorem Accepts.followed {first : Reader Result} {next : Result → Reader Answer}
    {between : Token.Kind → Bool} {passing : Result → Prop} {start : List Token.Kind}
    (before : first.Accepts (Token.gistsOf start) between passing)
    (after : ∀ answer, passing answer → (next answer).Accepts (Token.gistsOf filler) stop good)
    (fits : Fits between filler stop) :
    (first >>= next).Accepts (Token.gistsOf (start ++ filler)) stop good := by
  rw [Token.gistsOf, List.map_append]
  exact before.bind after fits

theorem Accepts.afterToken (after : behind.Accepts (Token.gistsOf filler) stop good) :
    (do expect kind; behind : Reader Answer).Accepts (Token.gistsOf (kind :: filler)) stop good :=
  (accepts_expect kind none).bind (fun _ _ => after) (fits_anything filler)

theorem Accepts.look_filler {next : Token.Kind → Reader Answer}
    (accepts : (next kind).Accepts (Token.gistsOf (kind :: filler)) stop good) :
    (Reader.look next).Accepts (Token.gistsOf (kind :: filler)) stop good :=
  .look_cons accepts

theorem accepts_token (kind : Token.Kind) :
    (expect kind).Accepts (Token.gistsOf [kind]) stop fun _ => True :=
  accepts_expect kind none

/-- An optional part accepts its token and what is behind it. -/
theorem Accepts.ifNext_behind
    (accepts : behind.Accepts (Token.gistsOf filler) stop good) :
    (ifNext kind behind here).Accepts (Token.gistsOf (kind :: filler)) stop good := by
  refine .look_cons ?_
  rw [if_pos rfl]
  exact accepts.afterToken

theorem Accepts.ifNext_here_cons {other : Token.Kind} (different : other ≠ kind)
    (accepts : here.Accepts (Token.gistsOf (other :: filler)) stop good) :
    (ifNext kind behind here).Accepts (Token.gistsOf (other :: filler)) stop good := by
  refine .look_cons ?_
  rw [if_neg different]
  exact accepts

/-- An optional part may be left out where its token cannot follow. -/
theorem Accepts.ifNext_here_nil (leavesOut : stop kind = false)
    (accepts : here.Accepts (Token.gistsOf []) stop good) :
    (ifNext kind behind here).Accepts (Token.gistsOf []) stop good := by
  refine .look_nil fun next isStop => ?_
  rw [if_neg]
  · exact accepts
  · rintro rfl
    rw [isStop] at leavesOut
    cases leavesOut

/-- A part that is left out unless its first token comes is read when it is left out. -/
theorem serves_optional {behind : Reader Unit} (usable : kind.isUsable)
    (behindServes : behind.Serves bound filler stop fun _ => True)
    (leavesOut : stop kind = false) :
    (optional kind behind).Serves bound [] stop fun _ => True :=
  ⟨.ifNext usable behindServes (foresees_pure ()),
    .ifNext_here_nil leavesOut (accepts_pure trivial), rfl⟩

end

end

end Reader

end LuaStyle
