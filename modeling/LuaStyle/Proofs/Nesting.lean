/-
This file proves that the regions of a tree that was read lie inside each other like the stretches
of tokens they were read from.

The span of a node reaches over the spans of what is inside it, what is inside lies in order and
apart, and neither end of a span cuts a token of the source, comments included. Clauses need a word
of their own. They are read with the span of their header, and only once they reach up to the clause
behind them do they hold what is written in them; the tree is looked at after that.
-/

import LuaStyle.Proofs.Extents
import LuaStyle.Proofs.Footprint
import LuaStyle.Proofs.Tiling

namespace LuaStyle

namespace Token

/-! ### Ends of spans between tokens -/

/-- The offset does not lie inside any of the tokens. -/
def Between (tokens : List Token) (offset : Nat) : Prop :=
  ∀ token ∈ tokens, token.stop ≤ offset ∨ offset ≤ token.start

/-- The tokens are some of those of a source, which lie one behind the other. -/
structure Stretch (source tokens : List Token) : Prop where
  ordered : Ordered source
  part : tokens.Sublist source

/-- The span reaches from the first token to the last. -/
structure Frames (tokens : List Token) (span : Span) : Prop where
  starts : ∃ first ∈ tokens, first.start = span.start
  stops : ∃ last ∈ tokens, last.stop = span.stop
  contains : ∀ token ∈ tokens, span.Contains token.span

variable {source tokens more : List Token} {token : Token} {span : Span}

/-- Where a token starts or stops is not inside a token. -/
theorem Ordered.between_of_mem (ordered : Ordered source) (member : token ∈ source) :
    Between source token.start ∧ Between source token.stop := by
  obtain ⟨before, after, rfl⟩ := List.append_of_mem member
  have width := ordered.nonempty token member
  have afterOrdered : Ordered ([token] ++ after) := ordered.right
  refine ⟨fun other isOther => ?_, fun other isOther => ?_⟩
  all_goals
    rcases List.mem_append.1 isOther with isBefore | isHere
    · have apart := ordered.stop_le isBefore (List.mem_cons_self ..)
      omega
    rcases List.mem_cons.1 isHere with rfl | isAfter
    · omega
    · have apart := afterOrdered.stop_le (List.mem_singleton_self token) isAfter
      omega

namespace Stretch

theorem left (stretch : Stretch source (tokens ++ more)) : Stretch source tokens :=
  ⟨stretch.ordered, (List.sublist_append_left ..).trans stretch.part⟩

theorem right (stretch : Stretch source (tokens ++ more)) : Stretch source more :=
  ⟨stretch.ordered, (List.sublist_append_right ..).trans stretch.part⟩

theorem head (stretch : Stretch source (token :: tokens)) : Stretch source [token] :=
  (show Stretch source ([token] ++ tokens) from stretch).left

theorem tail (stretch : Stretch source (token :: tokens)) : Stretch source tokens :=
  (show Stretch source ([token] ++ tokens) from stretch).right

/-- The tokens of a stretch lie in the order of the source. -/
theorem inOrder (stretch : Stretch source tokens) : Ordered tokens :=
  stretch.ordered.sublist stretch.part

end Stretch

/-- A span whose ends are not comments frames its tokens, comments included. -/
theorem Spans.frames (spans : Spans tokens span) (ordered : Ordered tokens) :
    Frames tokens span := by
  refine ⟨?_, ?_, fun token member => spans.contains_of_mem ordered member⟩
  · obtain ⟨first, more, rfl, -, same⟩ := spans.starts
    exact ⟨first, List.mem_cons_self .., same⟩
  · obtain ⟨before, last, rfl, -, same⟩ := spans.stops
    exact ⟨last, List.mem_concat_self, same⟩

/-- The ends of a span that reaches over a stretch lie inside no token of the source. -/
theorem Frames.between (frames : Frames tokens span) (stretch : Stretch source tokens) :
    Between source span.start ∧ Between source span.stop ∧ span.start ≤ span.stop := by
  obtain ⟨⟨first, isFirst, startSame⟩, ⟨last, isLast, stopSame⟩, contains⟩ := frames
  have starts := (stretch.ordered.between_of_mem (stretch.part.subset isFirst)).1
  have stops := (stretch.ordered.between_of_mem (stretch.part.subset isLast)).2
  have inside := contains first isFirst
  have width := Nat.le_of_lt (stretch.inOrder.nonempty first isFirst)
  exact ⟨startSame ▸ starts, stopSame ▸ stops,
    Nat.le_trans inside.1 (Nat.le_trans width inside.2)⟩

/-- A place that tokens start at lies in front of every place that they all stop before. -/
theorem StartsAt.start_lt {start stop : Nat} (starts : StartsAt tokens start)
    (ordered : Ordered tokens) (reaches : ∀ token ∈ tokens, token.stop ≤ stop) : start < stop := by
  obtain ⟨first, more, rfl, -, same⟩ := starts
  rw [← same]
  exact Nat.lt_of_lt_of_le (ordered.nonempty first List.mem_cons_self)
    (reaches first List.mem_cons_self)

theorem frames_single (token : Token) : Frames [token] token.span :=
  ⟨⟨token, List.mem_singleton_self token, rfl⟩, ⟨token, List.mem_singleton_self token, rfl⟩,
    fun other member => by
      cases List.mem_singleton.1 member
      exact ⟨Nat.le_refl _, Nat.le_refl _⟩⟩

end Token

/-! ### Regions inside regions -/

namespace Region

/-- One region stops before the other starts. -/
def Before (first second : Region) : Prop :=
  first.span.stop ≤ second.span.start

/-- What is right inside the region lies inside it, in order and apart, and takes up some of the
source; and the ends of the region do not lie inside a token. -/
structure Tidy (source : List Token) (region : Region) : Prop where
  starts : Token.Between source region.span.start
  stops : Token.Between source region.span.stop
  start_le_stop : region.span.start ≤ region.span.stop
  nonempty : ∀ child ∈ region.children, child.span.start < child.span.stop
  contains : ∀ child ∈ region.children, region.span.Contains child.span
  pairwise : region.children.Pairwise Before

/-- The region and all that are inside it are tidy. -/
inductive Nested (source : List Token) : Region → Prop
  | intro {region} : region.Tidy source → (∀ child ∈ region.children, Nested source child) →
    Nested source region

variable {source : List Token}

/-- A nested region is tidy itself. -/
theorem Nested.tidy {region : Region} (nested : region.Nested source) : region.Tidy source := by
  cases nested with
  | intro tidy _ => exact tidy

/-- What is right inside a nested region is nested. -/
theorem Nested.of_child {region child : Region} (nested : region.Nested source)
    (inside : child ∈ region.children) : child.Nested source := by
  cases nested with
  | intro _ children => exact children child inside

/-- The regions lie in the tokens, each in a stretch that it reaches over, one behind the other. -/
inductive Lie (source : List Token) : List Region → List Token → Prop
  | nil : Lie source [] []
  | skip {regions token tokens} : Lie source regions tokens → Lie source regions (token :: tokens)
  | cons {region regions front tokens} :
    Token.Frames front region.span → region.Nested source → Lie source regions tokens →
      Lie source (region :: regions) (front ++ tokens)

namespace Lie

variable {regions others : List Region} {tokens more : List Token}

theorem nothing : ∀ tokens : List Token, Lie source [] tokens
  | [] => .nil
  | _ :: rest => .skip (nothing rest)

/-- Regions that lie in two lists of tokens lie, one behind the other, in both together. -/
theorem append (first : Lie source regions tokens) (second : Lie source others more) :
    Lie source (regions ++ others) (tokens ++ more) := by
  induction first with
  | nil => exact second
  | skip _ inductionHypothesis => exact .skip inductionHypothesis
  | cons frames nested _ inductionHypothesis =>
    rw [List.append_assoc]
    exact .cons frames nested inductionHypothesis

/-- Regions that lie in tokens lie in longer lists of them. -/
theorem concat (lie : Lie source regions tokens) (more : List Token) :
    Lie source regions (tokens ++ more) := by
  have both := lie.append (nothing more)
  rwa [List.append_nil] at both

theorem single {region : Region} (frames : Token.Frames tokens region.span)
    (nested : region.Nested source) : Lie source [region] tokens := by
  have lie := cons frames nested nil
  rwa [List.append_nil] at lie

/-- Every region that lies in tokens is nested. -/
theorem nested (lie : Lie source regions tokens) : ∀ region ∈ regions, region.Nested source := by
  induction lie with
  | nil => exact nofun
  | skip _ inductionHypothesis => exact inductionHypothesis
  | cons _ nested _ inductionHypothesis =>
    exact List.forall_mem_cons.2 ⟨nested, inductionHypothesis⟩

/-- Each of the regions starts and stops with a token. -/
theorem ends (lie : Lie source regions tokens) : ∀ region ∈ regions,
    (∃ first ∈ tokens, first.start = region.span.start) ∧
      ∃ last ∈ tokens, last.stop = region.span.stop := by
  induction lie with
  | nil => exact nofun
  | skip _ inductionHypothesis =>
    intro region member
    obtain ⟨⟨first, isFirst, starts⟩, ⟨last, isLast, stops⟩⟩ := inductionHypothesis region member
    exact ⟨⟨first, List.mem_cons_of_mem _ isFirst, starts⟩,
      ⟨last, List.mem_cons_of_mem _ isLast, stops⟩⟩
  | cons frames _ _ inductionHypothesis =>
    refine List.forall_mem_cons.2 ⟨?_, fun region member => ?_⟩
    · obtain ⟨⟨first, isFirst, starts⟩, ⟨last, isLast, stops⟩, -⟩ := frames
      exact ⟨⟨first, List.mem_append_left _ isFirst, starts⟩,
        ⟨last, List.mem_append_left _ isLast, stops⟩⟩
    · obtain ⟨⟨first, isFirst, starts⟩, ⟨last, isLast, stops⟩⟩ := inductionHypothesis region member
      exact ⟨⟨first, List.mem_append_right _ isFirst, starts⟩,
        ⟨last, List.mem_append_right _ isLast, stops⟩⟩

/-- Regions that lie in tokens lie where the tokens do. -/
theorem contains (lie : Lie source regions tokens) {span : Span}
    (within : ∀ token ∈ tokens, span.Contains token.span) :
    ∀ region ∈ regions, span.Contains region.span := by
  intro region member
  obtain ⟨⟨first, isFirst, starts⟩, ⟨last, isLast, stops⟩⟩ := lie.ends region member
  exact ⟨starts ▸ (within first isFirst).1, stops ▸ (within last isLast).2⟩

/-- Regions that lie in tokens take up some of the source. -/
theorem nonempty (lie : Lie source regions tokens) (ordered : Token.Ordered tokens) :
    ∀ region ∈ regions, region.span.start < region.span.stop := by
  induction lie with
  | nil => exact nofun
  | skip _ inductionHypothesis => exact inductionHypothesis ordered.tail
  | cons frames _ _ inductionHypothesis =>
    refine List.forall_mem_cons.2 ⟨?_, inductionHypothesis ordered.right⟩
    obtain ⟨first, isFirst, -⟩ := frames.starts
    obtain ⟨starts, stops⟩ := frames.contains first isFirst
    have width := ordered.left.nonempty first isFirst
    exact Nat.lt_of_le_of_lt starts (Nat.lt_of_lt_of_le width stops)

/-- Regions that lie in tokens lie in order and apart. -/
theorem pairwise (lie : Lie source regions tokens) (ordered : Token.Ordered tokens) :
    regions.Pairwise Before := by
  induction lie with
  | nil => exact .nil
  | skip _ inductionHypothesis => exact inductionHypothesis ordered.tail
  | cons frames _ rest inductionHypothesis =>
    refine List.pairwise_cons.2 ⟨fun other member => ?_, inductionHypothesis ordered.right⟩
    obtain ⟨last, isLast, stops⟩ := frames.stops
    obtain ⟨⟨first, isFirst, starts⟩, -⟩ := rest.ends other member
    rw [Before, ← stops, ← starts]
    exact ordered.stop_le isLast isFirst

end Lie

variable {region : Region} {tokens : List Token}

/-- A region whose span reaches over tokens, with regions inside that lie in these. -/
theorem nested_of_lie (ordered : Token.Ordered tokens)
    (starts : Token.Between source region.span.start)
    (stops : Token.Between source region.span.stop)
    (start_le_stop : region.span.start ≤ region.span.stop)
    (within : ∀ token ∈ tokens, region.span.Contains token.span)
    (lie : Lie source region.children tokens) : region.Nested source :=
  .intro ⟨starts, stops, start_le_stop, lie.nonempty ordered, lie.contains within,
    lie.pairwise ordered⟩ lie.nested

/-- A region whose span reaches from the first token of a stretch to the last, with regions inside
that lie in the stretch. -/
theorem nested_of_frames (stretch : Token.Stretch source tokens)
    (frames : Token.Frames tokens region.span) (lie : Lie source region.children tokens) :
    region.Nested source := by
  obtain ⟨starts, stops, start_le_stop⟩ := frames.between stretch
  exact nested_of_lie stretch.inOrder starts stops start_le_stop frames.contains lie

/-- A region that is nested and reaches from the first token of a stretch to the last lies in the
stretch. -/
theorem lie_of_spans (stretch : Token.Stretch source tokens) {span : Span}
    (spans : Token.Spans tokens span) (same : region.span = span)
    (lie : Lie source region.children tokens) : Lie source [region] tokens := by
  subst same
  have frames := spans.frames stretch.inOrder
  exact .single frames (nested_of_frames stretch frames lie)

/-- What is in front of a list and what is in it lie in the tokens. -/
theorem lie_block {span : Span} {before items : List Region}
    (lie : Lie source (before ++ items) tokens) :
    Lie source (Region.block span before items []).children tokens := by
  rwa [children, List.append_nil]

/-- The regions lie in order between two offsets. -/
structure Fill (source : List Token) (lower upper : Nat) (regions : List Region) : Prop where
  nested : ∀ region ∈ regions, region.Nested source
  nonempty : ∀ region ∈ regions, region.span.start < region.span.stop
  contains : ∀ region ∈ regions, (Span.mk lower upper).Contains region.span
  pairwise : regions.Pairwise Before

/-- A region up to an offset, and regions from there on. -/
theorem Fill.cons {lower upper : Nat} {regions : List Region} (nested : region.Nested source)
    (width : region.span.start < region.span.stop) (starts : lower ≤ region.span.start)
    (stops : region.span.stop ≤ upper) (fill : Fill source region.span.stop upper regions) :
    Fill source lower upper (region :: regions) := by
  refine ⟨List.forall_mem_cons.2 ⟨nested, fill.nested⟩,
    List.forall_mem_cons.2 ⟨width, fill.nonempty⟩, List.forall_mem_cons.2
    ⟨⟨starts, stops⟩, fun other member => ?_⟩, List.pairwise_cons.2 ⟨fun other member => ?_,
      fill.pairwise⟩⟩
  · obtain ⟨below, above⟩ := fill.contains other member
    exact ⟨Nat.le_trans starts (Nat.le_trans (Nat.le_of_lt width) below), above⟩
  · exact (fill.contains other member).1

/-- A region whose children fill it lies in the tokens that it frames. -/
theorem lie_of_fill (stretch : Token.Stretch source tokens)
    (frames : Token.Frames tokens region.span)
    (fill : Fill source region.span.start region.span.stop region.children) :
    Lie source [region] tokens := by
  obtain ⟨starts, stops, start_le_stop⟩ := frames.between stretch
  exact .single frames
    (.intro ⟨starts, stops, start_le_stop, fill.nonempty, fill.contains, fill.pairwise⟩
      fill.nested)

end Region

/-! ### Spans of extended trees -/

/-- Making a clause reach an offset changes where it stops, and not where it starts. -/
theorem Clause.span_region_extendTo (clause : Clause) (stop : Nat) :
    (clause.extendTo stop).region.span = ⟨clause.span.start, stop⟩ := by
  cases clause <;> rfl

/-! ### Leaves -/

section

variable {source : List Token}

/-- A name lies in the token it is read from. -/
theorem Name.lie {name : Name} {token : Token} (reads : name.Reads token)
    (stretch : Token.Stretch source [token]) : Region.Lie source [name.region] [token] :=
  Region.lie_of_spans stretch reads.spans rfl (.nothing _)

/-- A literal lies in the token it is read from. -/
theorem Literal.lie {constant : Literal} {token : Token} (reads : constant.Reads token)
    (stretch : Token.Stretch source [token]) : Region.Lie source [constant.region] [token] :=
  Region.lie_of_spans stretch reads.spans rfl (.nothing _)

theorem Comment.span_ofToken (token : Token) : (Comment.ofToken token).span = token.span := by
  unfold Comment.ofToken
  dsimp only
  split <;> rfl

/-- A comment lies in its token. -/
theorem Comment.lie (token : Token) (stretch : Token.Stretch source [token]) :
    Region.Lie source [.comment (Comment.ofToken token)] [token] := by
  have frames : Token.Frames [token] (Region.comment (Comment.ofToken token)).span := by
    rw [Region.span, Comment.span_ofToken]
    exact Token.frames_single token
  exact .single frames (Region.nested_of_frames stretch frames (.nothing _))

/-- The names of a list lie in its tokens, with the separators left out. -/
theorem Name.lie_all {separator : Token.Kind} {names : List Name} {tokens : List Token}
    (reads : Name.ReadsAll separator names tokens) (stretch : Token.Stretch source tokens) :
    Region.Lie source (names.map Name.region) tokens := by
  induction reads with
  | single reads => exact Name.lie reads stretch
  | cons reads _ _ inductionHypothesis =>
    exact (Name.lie reads stretch.head).append (.skip (inductionHypothesis stretch.tail.tail))

theorem FunctionName.lie {name : FunctionName} {tokens : List Token} (reads : name.Reads tokens)
    (stretch : Token.Stretch source tokens) : Region.Lie source [name.region] tokens := by
  refine Region.lie_of_spans stretch reads.spans rfl ?_
  cases reads with
  | plain path =>
    have names := Name.lie_all path stretch
    rw [← List.append_nil (List.map ..)] at names
    exact names
  | method path _ method =>
    exact (Name.lie_all path stretch.left).append (.skip (Name.lie method stretch.right.tail))

/-- The name of a local function is one name. -/
theorem FunctionName.lie_single {name : Name} {token : Token} (reads : name.Reads token)
    (stretch : Token.Stretch source [token]) :
    Region.Lie source [(FunctionName.mk [name] none name.span).region] [token] :=
  Region.lie_of_spans stretch reads.spans rfl (Name.lie reads stretch)

/-- The parameters of a function lie in the tokens between its parentheses. -/
theorem Parameter.lie_all {parameters : List Parameter} {tokens : List Token}
    (reads : Parameter.ReadsAll parameters tokens) (stretch : Token.Stretch source tokens) :
    Region.Lie source (parameters.map Parameter.region) tokens := by
  induction reads with
  | nil => exact .nil
  | vararg kind =>
    exact Region.lie_of_spans stretch (Token.spans_single kind nofun) rfl (.nothing _)
  | single reads => exact Name.lie reads stretch
  | cons reads _ _ _ inductionHypothesis =>
    exact (Name.lie reads stretch.head).append (.skip (inductionHypothesis stretch.tail.tail))

end

/-! ### Expressions and statements -/

section

variable {strict : Bool} {source : List Token}

/-- A clause that reaches over its tokens is nested if what is inside it lies in them. -/
theorem Clause.nested_of_lie {clause : Clause} {tokens : List Token} {stop : Nat}
    (starts : Token.StartsAt tokens clause.span.start) (stretch : Token.Stretch source tokens)
    (between : Token.Between source stop) (reaches : ∀ token ∈ tokens, token.stop ≤ stop)
    (lie : Region.Lie source (clause.extendTo stop).region.children tokens) :
    (clause.extendTo stop).region.Nested source := by
  have start_lt := starts.start_lt stretch.inOrder reaches
  obtain ⟨first, more, rfl, -, startSame⟩ := starts
  have span := clause.span_region_extendTo stop
  have isFirst : first ∈ first :: more := List.mem_cons_self ..
  have within : ∀ token ∈ first :: more, clause.span.start ≤ token.start := by
    rw [← startSame]
    refine List.forall_mem_cons.2 ⟨Nat.le_refl _, fun token member => ?_⟩
    have width := stretch.inOrder.nonempty first isFirst
    have behind := (List.pairwise_cons.1 stretch.inOrder.pairwise).1 token member
    omega
  refine Region.nested_of_lie stretch.inOrder ?_ ?_ ?_ ?_ lie
  all_goals rw [span]
  · exact startSame ▸ (stretch.ordered.between_of_mem (stretch.part.subset isFirst)).1
  · exact between
  · exact Nat.le_of_lt start_lt
  · exact fun token member => ⟨within token member, reaches token member⟩

/-- The clauses that are read start with a token, or there are none. -/
theorem Clause.ReadsFurther.reach_eq {clauses : List Clause} {tokens : List Token}
    (reads : Clause.ReadsFurther strict clauses tokens) (stop : Nat) :
    Clause.reach clauses stop = stop ∨
      ∃ first ∈ tokens, first.start = Clause.reach clauses stop := by
  cases reads with
  | nil => exact .inl rfl
  | otherwise => exact .inr ⟨_, List.mem_cons_self .., rfl⟩
  | cons clause _ =>
    obtain ⟨first, more, rfl, -, startSame⟩ := clause.starts
    exact .inr ⟨first, List.mem_append_left _ (List.mem_cons_self ..), startSame⟩

/-- A clause in front of others reaches up to them, and over its own tokens. -/
theorem Clause.ReadsFurther.reaches {clauses : List Clause} {front tokens : List Token} {stop : Nat}
    (reads : Clause.ReadsFurther strict clauses tokens)
    (stretch : Token.Stretch source (front ++ tokens)) (between : Token.Between source stop)
    (within : ∀ token ∈ front ++ tokens, token.stop ≤ stop) :
    Token.Between source (Clause.reach clauses stop) ∧
      (∀ token ∈ front, token.stop ≤ Clause.reach clauses stop) ∧
        Clause.reach clauses stop ≤ stop := by
  rcases reads.reach_eq stop with same | ⟨first, isFirst, startSame⟩
  · rw [same]
    exact ⟨between, fun token member => within token (List.mem_append_left _ member), Nat.le_refl _⟩
  · rw [← startSame]
    have width := stretch.right.inOrder.nonempty first isFirst
    refine ⟨(stretch.ordered.between_of_mem (stretch.right.part.subset isFirst)).1,
      fun token member => stretch.inOrder.stop_le member isFirst, ?_⟩
    exact Nat.le_trans (Nat.le_of_lt width) (within first (List.mem_append_right _ isFirst))

/-- The arguments between the parentheses of a call lie in the tokens there. -/
theorem Expression.ReadsArguments.lie {arguments : List Expression} {tokens : List Token}
    (reads : Expression.ReadsArguments strict arguments tokens)
    (all : Expression.ReadsAll strict arguments tokens →
      Region.Lie source (Expression.regions (Expression.extendAll arguments)) tokens) :
    Region.Lie source (Expression.regions (Expression.extendAll arguments)) tokens := by
  cases reads with
  | nil => exact .nil
  | some reads => exact all reads

/-- What is inside a function lies in the tokens behind its name. -/
theorem Statement.ReadsFunction.lie {parameters : List Parameter} {body : List Statement}
    {tokens : List Token} (reads : Statement.ReadsFunction strict parameters body tokens)
    (stretch : Token.Stretch source tokens)
    (inner : ∀ {tokens}, Statement.ReadsBody strict body tokens → Token.Stretch source tokens →
      Region.Lie source (Statement.regions (Statement.extendAll body)) tokens) :
    Region.Lie source
      (parameters.map Parameter.region ++ Statement.regions (Statement.extendAll body))
      tokens := by
  cases reads with
  | intro _ parametersRead _ bodyRead _ =>
    have front := Parameter.lie_all parametersRead stretch.left.left.tail
    exact ((Region.Lie.skip front).append (.skip (inner bodyRead stretch.left.right.tail))).concat _

mutual

/-- The region of an expression that is read lies in the tokens. -/
theorem Expression.Reads.lie : ∀ (expression : Expression) {tokens : List Token},
    expression.Reads strict tokens ∨ expression.ReadsCallee strict tokens →
      Token.Stretch source tokens → Region.Lie source [expression.extendClauses.region] tokens
  | .binary operator left right span, tokens, reads, stretch => by
    have spans := Expression.Reads.spans _ reads stretch.inOrder
    refine Region.lie_of_spans stretch spans rfl ?_
    cases Expression.reads_of_or reads rfl with
    | binary leftReads _ rightReads =>
      exact (Expression.Reads.lie left (.inl leftReads) stretch.left).append
        (.skip (Expression.Reads.lie right (.inl rightReads) stretch.right.tail))
  | .unary operator argument span, tokens, reads, stretch => by
    have spans := Expression.Reads.spans _ reads stretch.inOrder
    refine Region.lie_of_spans stretch spans rfl ?_
    cases Expression.reads_of_or reads rfl with
    | unary _ argumentReads =>
      exact .skip (Expression.Reads.lie argument (.inl argumentReads) stretch.tail)
  | .call base arguments span, tokens, reads, stretch => by
    have spans := Expression.Reads.spans _ reads stretch.inOrder
    refine Region.lie_of_spans stretch spans rfl ?_
    cases Expression.reads_of_or reads rfl with
    | call callee _ argumentsRead _ =>
      have inner := argumentsRead.lie fun reads =>
        Expression.ReadsAll.lie arguments reads stretch.left.right.tail
      exact ((Expression.Reads.lie base (.inr callee) stretch.left.left).append
        (.skip inner)).concat _
  | .stringCall base argument span, tokens, reads, stretch => by
    have spans := Expression.Reads.spans _ reads stretch.inOrder
    refine Region.lie_of_spans stretch spans rfl ?_
    cases Expression.reads_of_or reads rfl with
    | stringCall callee isString found =>
      exact (Expression.Reads.lie base (.inr callee) stretch.left).append
        (Literal.lie (.string isString found) stretch.right)
  | .tableCall base fields tableSpan span, tokens, reads, stretch => by
    have spans := Expression.Reads.spans _ reads stretch.inOrder
    refine Region.lie_of_spans stretch spans rfl ?_
    cases Expression.reads_of_or reads rfl with
    | @tableCall _ _ before opening tokens closing callee opens fieldsRead closes =>
      rw [List.append_assoc] at stretch ⊢
      have inner := (Field.ReadsAll.lie fields fieldsRead stretch.right.left.tail)
      exact (Expression.Reads.lie base (.inr callee) stretch.left).append
        (Region.lie_of_spans stretch.right (Token.spans_between opens nofun closes nofun _) rfl
          (Region.lie_block ((Region.Lie.skip inner).concat _)))
  | .function head parameters body span, tokens, reads, stretch => by
    have spans := Expression.Reads.spans _ reads stretch.inOrder
    refine Region.lie_of_spans stretch spans rfl ?_
    cases Expression.reads_of_or reads rfl with
    | function _ functionReads =>
      exact Region.lie_block
        (.skip (functionReads.lie stretch.tail (Statement.ReadsBody.lie body)))
  | .group inner span, tokens, reads, stretch => by
    have spans := Expression.Reads.spans _ reads stretch.inOrder
    refine Region.lie_of_spans stretch spans rfl ?_
    cases Expression.reads_of_or reads rfl with
    | group _ innerReads _ =>
      exact (Region.Lie.skip
        (Expression.Reads.lie inner (.inl innerReads) stretch.left.tail)).concat _
  | .name _, tokens, reads, stretch => by
    cases Expression.reads_of_or reads rfl with
    | name nameReads => exact Name.lie nameReads stretch
  | .index base key span, tokens, reads, stretch => by
    have spans := Expression.Reads.spans _ reads stretch.inOrder
    refine Region.lie_of_spans stretch spans rfl ?_
    cases Expression.reads_of_or reads rfl with
    | index _ baseReads _ keyReads _ =>
      have inner := Expression.Reads.lie key (.inl keyReads) stretch.left.right.tail
      exact ((Expression.Reads.lie base (.inl baseReads) stretch.left.left).append
        (.skip inner)).concat _
  | .member base selector name span, tokens, reads, stretch => by
    have spans := Expression.Reads.spans _ reads stretch.inOrder
    refine Region.lie_of_spans stretch spans rfl ?_
    have parts : ∀ {before mark token}, tokens = before ++ [mark, token] →
        base.Reads strict before → name.Reads token →
          Region.Lie source [base.extendClauses.region, name.region] tokens := by
      rintro before mark token rfl baseReads nameReads
      exact (Expression.Reads.lie base (.inl baseReads) stretch.left).append
        (.skip (Name.lie nameReads stretch.right.tail))
    rcases reads with reads | callee
    · cases reads with
      | member _ baseReads _ nameReads => exact parts rfl baseReads nameReads
    · cases callee with
      | value _ reads =>
        cases reads with
        | member _ baseReads _ nameReads => exact parts rfl baseReads nameReads
      | method _ baseReads _ nameReads => exact parts rfl baseReads nameReads
  | .literal _, tokens, reads, stretch => by
    cases Expression.reads_of_or reads rfl with
    | literal literalReads => exact Literal.lie literalReads stretch
  | .table fields span, tokens, reads, stretch => by
    have spans := Expression.Reads.spans _ reads stretch.inOrder
    refine Region.lie_of_spans stretch spans rfl ?_
    cases Expression.reads_of_or reads rfl with
    | table _ fieldsRead _ =>
      exact Region.lie_block ((Region.Lie.skip
        (Field.ReadsAll.lie fields fieldsRead stretch.left.tail)).concat _)

/-- The expressions of a list lie in its tokens. -/
theorem Expression.ReadsAll.lie : ∀ (expressions : List Expression) {tokens : List Token},
    Expression.ReadsAll strict expressions tokens → Token.Stretch source tokens →
      Region.Lie source (Expression.regions (Expression.extendAll expressions)) tokens
  | [], _, reads, _ => by cases reads
  | expression :: rest, _, reads, stretch => by
    have restLie := @Expression.ReadsAll.lie rest
    cases reads with
    | single reads => exact Expression.Reads.lie expression (.inl reads) stretch
    | cons reads _ others =>
      exact (Expression.Reads.lie expression (.inl reads) stretch.left).append
        (.skip (restLie others stretch.right.tail))

theorem Expression.ReadsStep.lie : ∀ (step : Option Expression) {tokens : List Token},
    Expression.ReadsStep strict step tokens → Token.Stretch source tokens →
      Region.Lie source (Expression.regionsOfOptional (Expression.extendOptional step)) tokens
  | none, _, reads, _ => by
    cases reads
    exact .nil
  | some expression, _, reads, stretch => by
    cases reads with
    | some _ reads => exact .skip (Expression.Reads.lie expression (.inl reads) stretch.tail)

/-- The region of a field that is read lies in the tokens. -/
theorem Field.Reads.lie : ∀ (field : Field) {tokens : List Token},
    field.Reads strict tokens → Token.Stretch source tokens →
      Region.Lie source [field.extendClauses.region] tokens
  | .keyed key value span, tokens, reads, stretch => by
    refine Region.lie_of_spans stretch (reads.spans stretch.inOrder) rfl ?_
    cases reads with
    | keyed _ keyReads _ _ valueReads =>
      have front := Expression.Reads.lie key (.inl keyReads) stretch.left.tail
      have back := Expression.Reads.lie value (.inl valueReads) stretch.right.tail.tail
      exact (Region.Lie.skip front).append (.skip (.skip back))
  | .named name value span, tokens, reads, stretch => by
    refine Region.lie_of_spans stretch (reads.spans stretch.inOrder) rfl ?_
    cases reads with
    | named nameReads _ valueReads =>
      exact (Name.lie nameReads stretch.head).append
        (.skip (Expression.Reads.lie value (.inl valueReads) stretch.tail.tail))
  | .positional value, tokens, reads, stretch => by
    refine Region.lie_of_spans stretch (reads.spans stretch.inOrder) value.span_extendClauses ?_
    cases reads with
    | positional valueReads => exact Expression.Reads.lie value (.inl valueReads) stretch
  | .comment _, _, reads, _ => by cases reads

/-- The fields of a table lie in the tokens between its braces. -/
theorem Field.ReadsAll.lie : ∀ (fields : List Field) {tokens : List Token},
    Field.ReadsAll strict fields tokens → Token.Stretch source tokens →
      Region.Lie source (Field.regions (Field.extendAll fields)) tokens
  | [], _, reads, _ => .nothing _
  | field :: rest, _, reads, stretch => by
    have fieldLie := @Field.Reads.lie field
    cases reads with
    | comment kind others =>
      exact (Comment.lie _ stretch.head).append (Field.ReadsAll.lie rest others stretch.tail)
    | last reads _ others =>
      exact (fieldLie reads stretch.left).append (Field.ReadsAll.lie rest others stretch.right)
    | cons reads _ others =>
      exact (fieldLie reads stretch.left).append
        (.skip (Field.ReadsAll.lie rest others stretch.right.tail))

/-- The region of a clause is nested when the clause reaches over its tokens. -/
theorem Clause.ReadsGuarded.nested : ∀ (clause : Clause) {word : ClauseWord} {tokens : List Token}
    {stop : Nat}, Clause.ReadsGuarded strict word clause tokens → Token.Stretch source tokens →
      Token.Between source stop → (∀ token ∈ tokens, token.stop ≤ stop) →
        (clause.extendTo stop).region.Nested source
  | .guarded _ condition body span, _, tokens, stop, reads, stretch, between, reaches => by
    refine Clause.nested_of_lie reads.starts stretch between reaches ?_
    cases reads with
    | intro _ conditionReads _ bodyReads =>
      have front := Expression.Reads.lie condition (.inl conditionReads) stretch.left.tail
      have back := Statement.ReadsBody.lie body bodyReads stretch.right.tail
      exact Region.lie_block ((Region.Lie.skip front).append (.skip back))
  | .otherwise .., _, _, _, reads, _, _, _ => by cases reads

/-- The clauses behind the first, each made to reach the next, fill the rest of an `if` statement.
-/
theorem Clause.ReadsFurther.fill : ∀ (clauses : List Clause) {tokens : List Token} {stop : Nat},
    Clause.ReadsFurther strict clauses tokens → Token.Stretch source tokens →
      Token.Between source stop → (∀ token ∈ tokens, token.stop ≤ stop) →
        Region.Fill source (Clause.reach clauses stop) stop
          (Clause.regions (Clause.extendAll stop clauses))
  | [], _, _, _, _, _, _ => ⟨nofun, nofun, nofun, .nil⟩
  | .otherwise body span :: rest, tokens, stop, reads, stretch, between, reaches => by
    have bodyLie := @Statement.ReadsBody.lie body
    cases reads with
    | @otherwise _ keyword more kind bodyReads =>
      have starts := Token.startsAt_cons kind nofun more
      have nested : ((Clause.otherwise body keyword.span).extendTo stop).region.Nested source :=
        Clause.nested_of_lie starts stretch between reaches
          (Region.lie_block (.skip (bodyLie bodyReads stretch.tail)))
      exact .cons nested (starts.start_lt stretch.inOrder reaches) (Nat.le_refl _) (Nat.le_refl _)
        ⟨nofun, nofun, nofun, .nil⟩
    | cons reads _ => cases reads
  | .guarded word condition body span :: rest, tokens, stop, reads, stretch, between, reaches => by
    have clauseNested := @Clause.ReadsGuarded.nested (.guarded word condition body span)
    cases reads with
    | cons clauseReads others =>
      obtain ⟨reachBetween, past, below⟩ := others.reaches stretch between reaches
      have nested := clauseNested clauseReads stretch.left reachBetween past
      have width := clauseReads.starts.start_lt stretch.left.inOrder past
      exact .cons nested width (Nat.le_refl _) below
        (Clause.ReadsFurther.fill rest others stretch.right between fun token member =>
          reaches token (List.mem_append_right _ member))

/-- The region of a statement that is read lies in the tokens. -/
theorem Statement.Reads.lie : ∀ (statement : Statement) {tokens : List Token},
    statement.Reads strict tokens → Token.Stretch source tokens →
      Region.Lie source [statement.extendClauses.region] tokens
  | .assignment targets values span, tokens, reads, stretch => by
    have targetsLie := @Expression.ReadsAll.lie targets
    refine Region.lie_of_spans stretch (reads.spans stretch.inOrder rfl) rfl ?_
    cases reads with
    | assignment _ targetsRead _ valuesRead =>
      exact (targetsLie targetsRead stretch.left).append
        (.skip (Expression.ReadsAll.lie values valuesRead stretch.right.tail))
  | .breakLoop span, tokens, reads, stretch =>
    Region.lie_of_spans stretch (reads.spans stretch.inOrder rfl) rfl (.nothing _)
  | .call expression span, tokens, reads, stretch => by
    refine Region.lie_of_spans stretch (reads.spans stretch.inOrder rfl) rfl ?_
    cases reads with
    | call _ reads => exact Expression.Reads.lie expression (.inl reads) stretch
  | .comment _, tokens, reads, stretch => by
    cases reads
    exact Comment.lie _ stretch
  | .doBlock body span, tokens, reads, stretch => by
    refine Region.lie_of_spans stretch (reads.spans stretch.inOrder rfl) rfl ?_
    cases reads with
    | doBlock _ bodyReads _ =>
      have inner := Statement.ReadsBody.lie body bodyReads stretch.left.tail
      exact Region.lie_block ((Region.Lie.skip inner).concat _)
  | .genericFor declared iterators body span, tokens, reads, stretch => by
    refine Region.lie_of_spans stretch (reads.spans stretch.inOrder rfl) rfl ?_
    cases reads with
    | genericFor _ namesRead _ iteratorsRead _ bodyReads _ =>
      have names := Name.lie_all namesRead stretch.left.left.left.tail
      have values := Expression.ReadsAll.lie iterators iteratorsRead stretch.left.left.right.tail
      have inner := Statement.ReadsBody.lie body bodyReads stretch.left.right.tail
      exact Region.lie_block
        ((((Region.Lie.skip names).append (.skip values)).append (.skip inner)).concat _)
  | .numericFor counter first last step body span, tokens, reads, stretch => by
    refine Region.lie_of_spans stretch (reads.spans stretch.inOrder rfl) rfl ?_
    cases reads with
    | numericFor _ counterReads _ firstReads _ lastReads stepReads _ bodyReads _ =>
      have header := stretch.left.left
      have counterLie := Name.lie counterReads header.left.left.tail.head
      have firstLie := Expression.Reads.lie first (.inl firstReads) header.left.left.tail.tail.tail
      have lastLie := Expression.Reads.lie last (.inl lastReads) header.left.right.tail
      have stepLie := Expression.ReadsStep.lie step stepReads header.right
      have inner := Statement.ReadsBody.lie body bodyReads stretch.left.right.tail
      exact Region.lie_block (((((Region.Lie.skip (counterLie.append (.skip firstLie))).append
        (.skip lastLie)).append stepLie).append (.skip inner)).concat _)
  | .function head parameters body span, tokens, reads, stretch => by
    refine Region.lie_of_spans stretch (reads.spans stretch.inOrder rfl) rfl ?_
    cases reads with
    | function _ nameReads functionReads =>
      have front := FunctionName.lie nameReads stretch.left.tail
      exact Region.lie_block ((Region.Lie.skip front).append
        (functionReads.lie stretch.right (Statement.ReadsBody.lie body)))
    | localFunction _ _ nameReads functionReads =>
      have single := stretch.tail.tail.head
      have front := FunctionName.lie_single nameReads single
      exact Region.lie_block (.skip (.skip (front.append
        (functionReads.lie stretch.tail.tail.tail (Statement.ReadsBody.lie body)))))
  | .goto target span, tokens, reads, stretch => by
    refine Region.lie_of_spans stretch (reads.spans stretch.inOrder rfl) rfl ?_
    cases reads with
    | goto _ targetReads => exact .skip (Name.lie targetReads stretch.tail)
  | .ifElse [] _, _, reads, _ => by cases reads
  | .ifElse (clause :: rest) span, tokens, reads, stretch => by
    have clauseNested := @Clause.ReadsGuarded.nested clause
    have frames := (reads.spans stretch.inOrder rfl).frames stretch.inOrder
    refine Region.lie_of_fill stretch frames ?_
    cases reads with
    | ifElse clauseReads furtherRead _ =>
      obtain ⟨-, between, -⟩ := frames.between stretch
      have within := fun token member => (frames.contains token (List.mem_append_left _ member)).2
      obtain ⟨reachBetween, past, below⟩ := furtherRead.reaches stretch.left between within
      have nested := clauseNested clauseReads stretch.left.left reachBetween past
      refine .cons nested ?_ ?_ ?_ ?_
      all_goals rw [Clause.span_region_extendTo]
      · exact clauseReads.starts.start_lt stretch.left.left.inOrder past
      · exact Nat.le_of_eq clauseReads.starts.extent_start
      · exact below
      · exact Clause.ReadsFurther.fill rest furtherRead stretch.left.right between
          fun token member => within token (List.mem_append_right _ member)
  | .label name span, tokens, reads, stretch => by
    refine Region.lie_of_spans stretch (reads.spans stretch.inOrder rfl) rfl ?_
    cases reads with
    | label _ nameReads _ => exact .skip ((Name.lie nameReads stretch.tail.head).concat _)
  | .localVariables declared values span, tokens, reads, stretch => by
    refine Region.lie_of_spans stretch (reads.spans stretch.inOrder rfl) rfl ?_
    cases reads with
    | localNames _ namesRead =>
      have names := Name.lie_all namesRead stretch.tail
      rw [← List.append_nil (List.map ..)] at names
      exact .skip names
    | localVariables _ namesRead _ valuesRead =>
      exact (Region.Lie.skip (Name.lie_all namesRead stretch.left.tail)).append
        (.skip (Expression.ReadsAll.lie values valuesRead stretch.right.tail))
  | .repeatUntil body condition span, tokens, reads, stretch => by
    refine Region.lie_of_spans stretch (reads.spans stretch.inOrder rfl) rfl ?_
    cases reads with
    | repeatUntil _ bodyReads _ conditionReads =>
      exact (Region.Lie.skip (Statement.ReadsBody.lie body bodyReads stretch.left.tail)).append
        (.skip (Expression.Reads.lie condition (.inl conditionReads) stretch.right.tail))
  | .returnValues values span, tokens, reads, stretch => by
    refine Region.lie_of_spans stretch (reads.spans stretch.inOrder rfl) rfl ?_
    cases reads with
    | returnValues _ valuesRead _ =>
      exact (Region.Lie.skip (valuesRead.lie fun reads =>
        Expression.ReadsAll.lie values reads stretch.left.tail)).concat _
  | .whileLoop condition body span, tokens, reads, stretch => by
    refine Region.lie_of_spans stretch (reads.spans stretch.inOrder rfl) rfl ?_
    cases reads with
    | whileLoop _ conditionReads _ bodyReads _ =>
      have front := Expression.Reads.lie condition (.inl conditionReads) stretch.left.left.tail
      have inner := Statement.ReadsBody.lie body bodyReads stretch.left.right.tail
      exact Region.lie_block (((Region.Lie.skip front).append (.skip inner)).concat _)

/-- The regions of the statements of a block lie in the tokens that the block is read from. -/
theorem Statement.ReadsBody.lie : ∀ (body : List Statement) {tokens : List Token},
    Statement.ReadsBody strict body tokens → Token.Stretch source tokens →
      Region.Lie source (Statement.regions (Statement.extendAll body)) tokens
  | [], _, _, _ => .nothing _
  | statement :: rest, tokens, reads, stretch => by
    obtain ⟨marks, segment, more, rfl, -, first, -, -, others⟩ := reads.uncons
    have skipped : Region.Lie source [] marks := .nothing marks
    have start := skipped.append (Statement.Reads.lie statement first stretch.left.right)
    exact start.append (Statement.ReadsBody.lie rest others stretch.right)

end

end

/-! ### Chunks -/

/-- The chunk of a program spans the whole source. -/
theorem Program.span_of_parse {source : List Char} {program : Program}
    (parsed : parse source = .ok program) : program.chunk.span = ⟨0, byteLength source⟩ := by
  unfold parse at parsed
  obtain ⟨⟨body, rest, within⟩, found, parsed⟩ := bind_eq_ok.1 parsed
  dsimp only at parsed
  split at parsed
  · cases parsed
    rfl
  · cases parsed

/-- The regions of a block that is read from a stretch of tokens, as the body of a chunk that
reaches over all tokens, are nested. -/
theorem Chunk.nested_of_stretch {strict : Bool} {source tokens : List Token}
    {body : List Statement} {length : Nat} (reads : Statement.ReadsBody strict body tokens)
    (stretch : Token.Stretch source tokens) (within : ∀ token ∈ source, token.stop ≤ length) :
    (Chunk.mk body ⟨0, length⟩).extendClauses.region.Nested source :=
  Region.nested_of_lie stretch.inOrder (fun _ _ => .inr (Nat.zero_le _))
    (fun token member => .inl (within token member)) (Nat.zero_le _)
    (fun token member => ⟨Nat.zero_le _, within token (stretch.part.subset member)⟩)
    (Region.lie_block (Statement.ReadsBody.lie body reads stretch))

/-- The regions of a block that is read from tokens of a source, as the body of a chunk, are nested.
-/
theorem Chunk.nested_of_reads {strict : Bool} {source : List Char} {body : List Statement}
    {tokens : List Token} (reads : Statement.ReadsBody strict body tokens)
    (part : tokens.Sublist (Token.ofText source)) :
    (Chunk.mk body ⟨0, byteLength source⟩).extendClauses.region.Nested (Token.ofText source) :=
  Chunk.nested_of_stretch reads ⟨Token.ordered_ofText source, part⟩
    (Token.tiles_ofText source).within

/-- The regions of a source that parses are nested once its clauses reach their ends. -/
theorem Program.nested_of_parse {source : List Char} {program : Program}
    (parsed : parse source = .ok program) :
    program.chunk.extendClauses.region.Nested (Token.ofText source) := by
  obtain ⟨reads, -⟩ := parse_reads parsed
  have nested := Chunk.nested_of_reads reads List.filter_sublist
  rwa [← span_of_parse parsed] at nested

end LuaStyle
