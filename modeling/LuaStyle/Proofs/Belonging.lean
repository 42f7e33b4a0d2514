/-
This file proves that every comment of a source is put where it belongs.

A comment of a source is a token, and the span of a node ends between tokens. So a node contains a
comment or lies on one side of it, and the nodes that contain it stand one inside another. Going
down through these to the last block or table finds the innermost one. In the list there, comments
that were put in before stop where the comment has not started yet, because comments are put in from
first to last; the items that are not comments lie on either side of the comment, except for the one
that contains it if it has no place for it.

What one step does to the tree is written down as a relation, with one case for each way that the
search can go on or end. The facts about the tree are carried along these cases, and then along the
comments of the source.
-/

import LuaStyle.Proofs.Nesting
import LuaStyle.Proofs.ReadBack
import Mathlib.Data.List.Pairwise

namespace LuaStyle

/-- One comment stops before the other starts. -/
structure Comment.Before (first second : Comment) : Prop where
  start_lt_stop : first.span.start < first.span.stop
  stop_le : first.span.stop ≤ second.span.start

/-- The comment lies where a token of the source does. -/
def Comment.Cut (source : List Token) (remark : Comment) : Prop :=
  ∃ token ∈ source, remark.span = token.span ∧ token.start < token.stop

/-- A comment out of a source takes up some of it. -/
theorem Comment.Cut.start_lt_stop {source : List Token} {remark : Comment}
    (cut : remark.Cut source) : remark.span.start < remark.span.stop := by
  obtain ⟨token, -, same, start_lt_stop⟩ := cut
  rw [same]
  exact start_lt_stop

namespace Region

variable {source : List Token}

/-! ### Regions apart from their comments -/

theorem children_keep_sublist (keeps : Comment → Bool) (region : Region) :
    (region.keep keeps).children.Sublist (region.children.map (keep keeps)) := by
  cases region with
  | part span parts =>
    rw [keep, children, keepAll_eq_map]
    exact .refl _
  | block span before items after =>
    rw [keep, children, keepAll_eq_map, keepItems_eq_map, keepAll_eq_map, children,
      List.map_append, List.map_append]
    exact ((List.Sublist.refl _).append (List.filter_sublist.map _)).append (.refl _)
  | comment remark => exact .refl []

/-- Regions are nested whichever of their comments are there. -/
theorem Nested.keep {region : Region} (nested : region.Nested source) (keeps : Comment → Bool) :
    (region.keep keeps).Nested source := by
  induction nested with
  | @intro region tidy _ inductionHypothesis =>
    have kept := region.children_keep_sublist keeps
    refine .intro ⟨?_, ?_, ?_, ?_, ?_, ?_⟩ ?_
    · rw [span_keep]
      exact tidy.starts
    · rw [span_keep]
      exact tidy.stops
    · rw [span_keep]
      exact tidy.start_le_stop
    · intro child member
      obtain ⟨whole, isWhole, rfl⟩ := List.mem_map.1 (kept.subset member)
      rw [span_keep]
      exact tidy.nonempty whole isWhole
    · intro child member
      obtain ⟨whole, isWhole, rfl⟩ := List.mem_map.1 (kept.subset member)
      rw [span_keep, span_keep]
      exact tidy.contains whole isWhole
    · refine (List.pairwise_map.2 (tidy.pairwise.imp fun before => ?_)).sublist kept
      rwa [Before, span_keep, span_keep]
    · intro child member
      obtain ⟨whole, isWhole, rfl⟩ := List.mem_map.1 (kept.subset member)
      exact inductionHypothesis whole isWhole

/-- The region without its comments is nested. -/
def Framed (source : List Token) (region : Region) : Prop :=
  region.shape.Nested source

namespace Framed

variable {region child : Region} {token : Token}

/-- A framed region does not stop before it starts. -/
theorem start_le_stop (framed : region.Framed source) : region.span.start ≤ region.span.stop := by
  have width := framed.tidy.start_le_stop
  rwa [shape, span_keep] at width

/-- A token is contained in the region, or lies on one side of it. -/
theorem contains_or_apart (framed : region.Framed source) (member : token ∈ source) :
    region.span.Contains token.span ∨ region.span.stop ≤ token.start ∨
      token.stop ≤ region.span.start := by
  have starts := framed.tidy.starts token member
  have stops := framed.tidy.stops token member
  rw [shape, span_keep] at starts stops
  rcases starts with behind | start_le
  · exact .inr (.inr behind)
  · rcases stops with stop_le | inFront
    · exact .inl ⟨start_le, stop_le⟩
    · exact .inr (.inl inFront)

/-- What is kept of the regions inside is inside what is kept. -/
theorem sublist_children (region : Region) :
    ((region.children.filter (isKept fun _ => false)).map shape).Sublist
      region.shape.children := by
  cases region with
  | part span parts =>
    rw [shape, keep, children, children, keepAll_eq_map]
    exact List.filter_sublist.map _
  | block span before items after =>
    rw [shape, keep, children, children, keepAll_eq_map, keepItems_eq_map, keepAll_eq_map,
      List.filter_append, List.filter_append, List.map_append, List.map_append]
    exact ((List.filter_sublist.map _).append (.refl _)).append (List.filter_sublist.map _)
  | comment remark => exact .refl []

theorem shape_mem (inside : child ∈ region.children) (code : child.own = []) :
    child.shape ∈ region.shape.children :=
  (sublist_children region).subset
    (List.mem_map_of_mem (List.mem_filter.2 ⟨inside, isKept_of_own_eq_nil _ code⟩))

/-- What is right inside a framed region is framed, comments apart. -/
theorem of_child (framed : region.Framed source) (inside : child ∈ region.children)
    (code : child.own = []) : child.Framed source :=
  Nested.of_child framed (shape_mem inside code)

/-- A framed region contains what is right inside it, comments apart. -/
theorem contains_child (framed : region.Framed source) (inside : child ∈ region.children)
    (code : child.own = []) : region.span.Contains child.span := by
  have contains := framed.tidy.contains child.shape (shape_mem inside code)
  rwa [shape, shape, span_keep, span_keep] at contains

/-- The regions inside that are not comments lie in order and apart. -/
theorem pairwise_children (framed : region.Framed source) :
    region.children.Pairwise fun first second =>
      first.own = [] → second.own = [] → first.Before second := by
  have kept := framed.tidy.pairwise.sublist (sublist_children region)
  rw [List.pairwise_map, List.pairwise_filter] at kept
  refine kept.imp fun before first second => ?_
  have apart := before (isKept_of_own_eq_nil _ first) (isKept_of_own_eq_nil _ second)
  rwa [Before, shape, shape, span_keep, span_keep] at apart

end Framed

/-- A region contains every block inside it. -/
theorem Framed.contains_of_mem_blocks {region : Region} (framed : region.Framed source)
    {inner : Span} (member : inner ∈ region.blocks) : region.span.Contains inner := by
  induction region using inductionOnChildren with
  | step region inside =>
    rcases mem_blocks member with rfl | ⟨child, isChild, within⟩
    · exact ⟨Nat.le_refl _, Nat.le_refl _⟩
    · have code := own_eq_nil_of_mem_blocks within
      obtain ⟨start_le, le_stop⟩ := framed.contains_child isChild code
      obtain ⟨below, above⟩ := inside child isChild (framed.of_child isChild code) within
      exact ⟨Nat.le_trans start_le below, Nat.le_trans above le_stop⟩

/-! ### What putting a comment into a region does -/

section

variable (remark : Comment)

/-- The region does not contain the comment, or has no place for it. -/
def Refuses (region : Region) : Prop :=
  region.span.Contains remark.span → region.place remark = none

/-- The comment comes to stand in a list between the items in front of it and those behind. -/
inductive Stands : List Region → List Region → Prop
  /-- It moves out of the item behind it. -/
  | moved {front item back} :
    (∀ other ∈ front, ¬ other.span.Contains remark.span) → item.span.Contains remark.span →
      item.place remark = none → Stands front (item :: back)
  /-- No item contains it, and the next one starts behind it. -/
  | settled {front back} :
    (∀ item ∈ front ++ back, ¬ item.span.Contains remark.span) →
      (∀ item ∈ front, item.span.start < remark.span.stop) →
        (∀ item ∈ back.head?, remark.span.stop ≤ item.span.start) → Stands front back

/-- The second region is the first with the comment put into it. -/
inductive Placed : Region → Region → Prop
  | part {span front child result back} :
    child.span.Contains remark.span → Placed child result →
      Placed (.part span (front ++ child :: back)) (.part span (front ++ result :: back))
  | before {span front child result back items after} :
    child.span.Contains remark.span → Placed child result →
      Placed (.block span (front ++ child :: back) items after)
        (.block span (front ++ result :: back) items after)
  | after {span before items front child result back} :
    child.span.Contains remark.span → Placed child result →
      Placed (.block span before items (front ++ child :: back))
        (.block span before items (front ++ result :: back))
  | item {span before front item result back after} :
    item.span.Contains remark.span → Placed item result →
      Placed (.block span before (front ++ item :: back) after)
        (.block span before (front ++ result :: back) after)
  | listed {span before front back after} :
    (∀ header ∈ before ++ after, header.Refuses remark) → Stands remark front back →
      Placed (.block span before (front ++ back) after)
        (.block span before (front ++ .comment remark :: back) after)

end

variable {remark : Comment} {region result : Region}

/-- Where a place for a comment is found, the comment is put there. -/
theorem placed_of_place (found : region.place remark = some result) :
    region.Placed remark result := by
  induction region generalizing result with
  | part span children inside =>
    rw [place] at found
    obtain ⟨placed, first, rfl⟩ := Option.map_eq_some_iff.1 found
    obtain ⟨front, child, result, back, rfl, rfl, contains, within⟩ := exists_of_placeFirst first
    exact .part contains (inside child List.mem_append_cons_self within)
  | block span before items after insideBefore insideItems insideAfter =>
    rw [place] at found
    split at found
    next placed first =>
      cases found
      obtain ⟨front, child, result, back, rfl, rfl, contains, within⟩ := exists_of_placeFirst first
      exact .before contains (insideBefore child List.mem_append_cons_self within)
    next refusedBefore =>
      split at found
      next placed first =>
        cases found
        obtain ⟨front, child, result, back, rfl, rfl, contains, within⟩ :=
          exists_of_placeFirst first
        exact .after contains (insideAfter child List.mem_append_cons_self within)
      next refusedAfter =>
        cases found
        have refuses : ∀ header ∈ before ++ after, header.Refuses remark :=
          List.forall_mem_append.2
            ⟨placeFirst_eq_none_iff.1 refusedBefore, placeFirst_eq_none_iff.1 refusedAfter⟩
        cases among : placeAmong remark items with
        | some placed =>
          obtain ⟨front, item, back, rfl, apart, contains,
            ⟨result, within, rfl⟩ | ⟨refused, rfl⟩⟩ := exists_of_placeAmong among
          · exact .item contains (insideItems item List.mem_append_cons_self within)
          · exact .listed refuses (.moved apart contains refused)
        | none =>
          have apart := placeAmong_eq_none_iff.1 among
          obtain ⟨front, back, rfl, same, starts, next⟩ := @exists_of_settle remark items
          rw [same]
          exact .listed refuses (.settled apart starts next)
  | comment remark => cases found

theorem Placed.own_eq_nil (placed : region.Placed remark result) :
    region.own = [] ∧ result.own = [] := by
  cases placed <;> exact ⟨rfl, rfl⟩

/-- Apart from comments, the region stays as it is. -/
theorem Placed.shape_eq (placed : region.Placed remark result) : result.shape = region.shape := by
  induction placed with
  | part _ _ same | before _ _ same | after _ _ same =>
    simp only [shape, keep, keepAll_eq_map, List.map_append, List.map_cons] at same ⊢
    rw [same]
  | item _ placed same =>
    obtain ⟨code, alsoCode⟩ := placed.own_eq_nil
    simp only [shape, keep, keepItems_append, keepItems, isKept_of_own_eq_nil _ code,
      isKept_of_own_eq_nil _ alsoCode, if_true] at same ⊢
    rw [same]
  | listed _ _ =>
    simp only [shape, keep, keepItems_append, keepItems, isKept, Bool.false_eq_true, if_false]

theorem Placed.span_eq (placed : region.Placed remark result) : result.span = region.span := by
  have same := congrArg span placed.shape_eq
  rwa [shape, shape, span_keep, span_keep] at same

theorem Placed.blocks_eq (placed : region.Placed remark result) :
    result.blocks = region.blocks := by
  have same := congrArg blocks placed.shape_eq
  rwa [shape, shape, blocks_keep, blocks_keep] at same

/-- A region stays framed when a comment is put into it, since frames leave comments out. -/
theorem Placed.framed (placed : region.Placed remark result) (framed : region.Framed source) :
    result.Framed source := by
  rw [Framed, placed.shape_eq]
  exact framed

/-! ### No place -/

/-- If what contains the comment has no block that contains it, then no block contains it. -/
theorem not_contains_of_mem_blocksAll {regions : List Region}
    (framed : ∀ child ∈ regions, child.own = [] → child.Framed source)
    (excluded : ∀ child ∈ regions, child.span.Contains remark.span →
      ∀ inner ∈ child.blocks, ¬ inner.Contains remark.span) :
    ∀ inner ∈ blocksAll regions, ¬ inner.Contains remark.span := by
  intro inner member contains
  obtain ⟨child, inside, within⟩ := mem_blocksAll.1 member
  obtain ⟨start_le, le_stop⟩ :=
    (framed child inside (own_eq_nil_of_mem_blocks within)).contains_of_mem_blocks within
  exact excluded child inside
    ⟨Nat.le_trans start_le contains.1, Nat.le_trans contains.2 le_stop⟩ inner within contains

/-- A region without a place for a comment has no block that contains it. -/
theorem not_contains_of_place_eq_none (refused : region.place remark = none)
    (framed : region.Framed source) : ∀ inner ∈ region.blocks, ¬ inner.Contains remark.span := by
  induction region with
  | part span children inside =>
    rw [place, Option.map_eq_none_iff, placeFirst_eq_none_iff] at refused
    refine not_contains_of_mem_blocksAll (fun child isChild => framed.of_child isChild) ?_
    intro child isChild contains inner within
    have code := own_eq_nil_of_mem_blocks within
    exact inside child isChild (refused child isChild contains) (framed.of_child isChild code) inner
      within
  | block span before items after =>
    rw [place] at refused
    split at refused
    · cases refused
    · split at refused <;> cases refused
  | comment remark => exact List.forall_mem_nil _

/-! ### Lists in order -/

/-- The first item may stand in front of the second: it stops before the second starts, or it is a
comment and the second an item that contains it. -/
def Precedes (first second : Region) : Prop :=
  first.span.stop ≤ second.span.start ∨
    first.own ≠ [] ∧ second.own = [] ∧ second.span.Contains first.span

/-- The comments in the list of a block stand where they should: the items come in order, and the
block contains each of the comments while no block inside it does. -/
structure Takes (span : Span) (before items after : List Region) : Prop where
  precedes : items.Pairwise Precedes
  contains : ∀ remark, .comment remark ∈ items → span.Contains remark.span
  innermost : ∀ remark, .comment remark ∈ items →
    ∀ inner ∈ blocksAll (before ++ items ++ after), ¬ inner.Contains remark.span

/-- What stands around the items that take a comment matters only for the blocks it holds. -/
theorem Takes.of_blocks {span : Span} {before items after front back : List Region}
    (takes : Takes span before items after)
    (same : blocksAll (front ++ items ++ back) = blocksAll (before ++ items ++ after)) :
    Takes span front items back :=
  ⟨takes.precedes, takes.contains, by rw [same]; exact takes.innermost⟩

/-- An item that is no comment may be exchanged for one like it. -/
theorem Takes.of_item {span : Span} {before front back after : List Region} {item other : Region}
    (takes : Takes span before (front ++ item :: back) after) (sameSpan : other.span = item.span)
    (sameBlocks : other.blocks = item.blocks) (code : item.own = []) (alsoCode : other.own = []) :
    Takes span before (front ++ other :: back) after := by
  have member {remark : Comment} (isItem : .comment remark ∈ front ++ other :: back) :
      .comment remark ∈ front ++ item :: back := by
    rw [List.mem_append, List.mem_cons] at isItem ⊢
    rcases isItem with isFront | rfl | isBack
    · exact .inl isFront
    · cases alsoCode
    · exact .inr (.inr isBack)
  refine ⟨?_, fun remark isItem => takes.contains remark (member isItem), fun remark isItem => ?_⟩
  · have precedes := takes.precedes
    simp only [List.pairwise_append, List.pairwise_cons, List.forall_mem_cons, Precedes, code,
      alsoCode, sameSpan] at precedes ⊢
    exact precedes
  · have innermost := takes.innermost remark (member isItem)
    simp only [blocksAll_append, blocksAll, sameBlocks] at innermost ⊢
    exact innermost

/-- In every list inside the region, the comments stand where they should. -/
inductive WellPlaced : Region → Prop
  | part {span children} : (∀ child ∈ children, WellPlaced child) → WellPlaced (.part span children)
  | block {span before items after} :
    (∀ child ∈ before, WellPlaced child) → (∀ child ∈ items, WellPlaced child) →
      (∀ child ∈ after, WellPlaced child) → Takes span before items after →
        WellPlaced (.block span before items after)
  | comment (remark : Comment) : WellPlaced (.comment remark)

theorem WellPlaced.of_child {child : Region} (well : region.WellPlaced)
    (inside : child ∈ region.children) : child.WellPlaced := by
  cases well with
  | part all => exact all child inside
  | block before items after _ =>
    exact List.forall_mem_append.2 ⟨List.forall_mem_append.2 ⟨before, items⟩, after⟩ child inside
  | comment => cases inside

/-- Without comments, nothing can stand where it should not. -/
theorem wellPlaced_of_bare (nested : region.Nested source) (bare : region.comments = []) :
    region.WellPlaced := by
  have bareChild {region child : Region} (bare : region.comments = [])
      (isChild : child ∈ region.children) : child.comments = [] :=
    List.eq_nil_of_subset_nil (bare ▸ comments_subset_of_child isChild)
  induction region with
  | part span parts inside =>
    exact .part fun child isChild =>
      inside child isChild (nested.of_child isChild) (bareChild bare isChild)
  | block span before items after insideBefore insideItems insideAfter =>
    have noComment {remark : Comment} (isItem : .comment remark ∈ items) : False := by
      have among : remark ∈ (block span before items after).comments := mem_comments_of_item isItem
      rw [bare] at among
      cases among
    have isBefore {child : Region} (member : child ∈ before) :
        child ∈ (block span before items after).children :=
      List.mem_append_left _ (List.mem_append_left _ member)
    have isItem {child : Region} (member : child ∈ items) :
        child ∈ (block span before items after).children :=
      List.mem_append_left _ (List.mem_append_right _ member)
    have isAfter {child : Region} (member : child ∈ after) :
        child ∈ (block span before items after).children :=
      List.mem_append_right _ member
    have apart := (List.pairwise_append.1 (List.pairwise_append.1 nested.tidy.pairwise).1).2.1
    exact .block
      (fun child member => insideBefore child member (nested.of_child (isBefore member))
        (bareChild bare (isBefore member)))
      (fun child member => insideItems child member (nested.of_child (isItem member))
        (bareChild bare (isItem member)))
      (fun child member => insideAfter child member (nested.of_child (isAfter member))
        (bareChild bare (isAfter member)))
      ⟨apart.imp .inl, fun _ isItem => (noComment isItem).elim,
        fun _ isItem => (noComment isItem).elim⟩
  | comment remark => exact .comment remark

/-! ### One comment more -/

/-- The items of a list into which a comment is put: they come in order, and those that are comments
stop before this one starts. -/
structure Awaits (source : List Token) (remark : Comment) (items : List Region) : Prop where
  cut : remark.Cut source
  precedes : items.Pairwise Precedes
  framed : ∀ item ∈ items, item.own = [] → item.Framed source
  before : ∀ earlier, .comment earlier ∈ items → earlier.Before remark

section

variable {front back : List Region} {item : Region}

/-- What contains the comment is not a comment that was put in before. -/
theorem Awaits.own_eq_nil {items : List Region} (awaits : Awaits source remark items)
    (member : item ∈ items) (contains : item.span.Contains remark.span) : item.own = [] := by
  cases item with
  | comment earlier =>
    have stops := (awaits.before earlier member).stop_le
    have start := awaits.cut.start_lt_stop
    exact absurd contains.2 (by rw [span]; omega)
  | _ => rfl

/-- A region contains a comment of the source or lies on one side of it. -/
theorem Framed.contains_or_apart_comment (framed : region.Framed source)
    (cut : remark.Cut source) :
    region.span.Contains remark.span ∨ region.span.stop ≤ remark.span.start ∨
      remark.span.stop ≤ region.span.start := by
  obtain ⟨token, member, same, -⟩ := cut
  rw [same]
  exact framed.contains_or_apart member

/-- The items in front of the comment stop before it starts. -/
theorem Stands.stop_le (stands : Stands remark front back)
    (awaits : Awaits source remark (front ++ back)) :
    ∀ item ∈ front, item.span.stop ≤ remark.span.start := by
  intro item member
  have among : item ∈ front ++ back := List.mem_append_left _ member
  by_cases code : item.own = []
  · cases stands with
    | @moved other _ _ contains _ =>
      rcases (List.pairwise_append.1 awaits.precedes).2.2 item member other
        List.mem_cons_self with stop_le | ⟨isComment, -⟩
      · exact Nat.le_trans stop_le contains.1
      · exact absurd code isComment
    | settled apart starts _ =>
      rcases (awaits.framed item among code).contains_or_apart_comment awaits.cut with
        contains | stop_le | behind
      · exact absurd contains (apart item among)
      · exact stop_le
      · exact absurd (starts item member) (Nat.not_lt.2 behind)
  · cases item with
    | comment earlier => exact (awaits.before earlier among).stop_le
    | _ => exact absurd rfl code

/-- The comment may stand in front of the items behind it. -/
theorem Stands.precedes (stands : Stands remark front back)
    (awaits : Awaits source remark (front ++ back)) :
    ∀ item ∈ back, Precedes (.comment remark) item := by
  have inOrder := (List.pairwise_append.1 awaits.precedes).2.1
  cases stands with
  | @moved item back _ contains _ =>
    have code := awaits.own_eq_nil List.mem_append_cons_self contains
    refine List.forall_mem_cons.2 ⟨.inr ⟨nofun, code, contains⟩, fun other member => ?_⟩
    rcases (List.pairwise_cons.1 inOrder).1 other member with stop_le | ⟨isComment, -⟩
    · exact .inl (Nat.le_trans contains.2 stop_le)
    · exact absurd code isComment
  | settled apart _ next =>
    cases back with
    | nil => exact nofun
    | cons item back =>
      have behind : remark.span.stop ≤ item.span.start := next item rfl
      refine List.forall_mem_cons.2 ⟨.inl behind, fun other member => ?_⟩
      have among : item ∈ front ++ item :: back := List.mem_append_cons_self
      cases item with
      | comment earlier =>
        obtain ⟨width, stop_le⟩ := awaits.before earlier among
        have start := awaits.cut.start_lt_stop
        rw [span] at behind
        omega
      | part itemSpan | block itemSpan =>
        have width := (awaits.framed _ among rfl).start_le_stop
        rcases (List.pairwise_cons.1 inOrder).1 other member with stop_le | ⟨isComment, -⟩
        · exact .inl (Nat.le_trans behind (Nat.le_trans width stop_le))
        · exact absurd rfl isComment

/-- No item of the list has a place for the comment. -/
theorem Stands.refuses (stands : Stands remark front back)
    (awaits : Awaits source remark (front ++ back)) :
    ∀ item ∈ front ++ back, item.Refuses remark := by
  have start := awaits.cut.start_lt_stop
  cases stands with
  | @moved item back apart contains refused =>
    have code := awaits.own_eq_nil List.mem_append_cons_self contains
    have inOrder := (List.pairwise_append.1 awaits.precedes).2.1
    refine List.forall_mem_append.2 ⟨fun other member inside => absurd inside (apart other member),
      List.forall_mem_cons.2 ⟨fun _ => refused, fun other member inside => ?_⟩⟩
    rcases (List.pairwise_cons.1 inOrder).1 other member with stop_le | ⟨isComment, -⟩
    · obtain ⟨-, within⟩ := contains
      obtain ⟨below, -⟩ := inside
      omega
    · exact absurd code isComment
  | settled apart _ _ => exact fun item member inside => absurd inside (apart item member)

/-- The list takes the comment that comes to stand in it. -/
theorem Stands.takes {span : Span} {before after : List Region} (stands : Stands remark front back)
    (awaits : Awaits source remark (front ++ back))
    (refuses : ∀ header ∈ before ++ after, header.Refuses remark)
    (framed : ∀ header ∈ before ++ after, header.own = [] → header.Framed source)
    (contains : span.Contains remark.span) (takes : Takes span before (front ++ back) after) :
    Takes span before (front ++ .comment remark :: back) after := by
  have sameBlocks : blocksAll (before ++ (front ++ .comment remark :: back) ++ after) =
      blocksAll (before ++ (front ++ back) ++ after) := by
    simp only [blocksAll_append, blocksAll, blocks, List.nil_append]
  have member {other : Comment} (isItem : .comment other ∈ front ++ .comment remark :: back) :
      other = remark ∨ .comment other ∈ front ++ back := by
    rw [List.mem_append, List.mem_cons] at isItem
    rw [List.mem_append]
    rcases isItem with isFront | same | isBack
    · exact .inr (.inl isFront)
    · exact .inl (Region.comment.inj same)
    · exact .inr (.inr isBack)
  refine ⟨?_, fun other isItem => ?_, fun other isItem => ?_⟩
  · obtain ⟨inFront, inBack, across⟩ := List.pairwise_append.1 takes.precedes
    refine List.pairwise_append.2 ⟨inFront,
      List.pairwise_cons.2 ⟨stands.precedes awaits, inBack⟩, fun item isFront => ?_⟩
    exact List.forall_mem_cons.2 ⟨.inl (stands.stop_le awaits item isFront), across item isFront⟩
  · rcases member isItem with rfl | old
    · exact contains
    · exact takes.contains other old
  · rw [sameBlocks]
    rcases member isItem with rfl | old
    · obtain ⟨refusesBefore, refusesAfter⟩ := List.forall_mem_append.1 refuses
      obtain ⟨framedBefore, framedAfter⟩ := List.forall_mem_append.1 framed
      have framedAll := List.forall_mem_append.2
        ⟨List.forall_mem_append.2 ⟨framedBefore, awaits.framed⟩, framedAfter⟩
      have refusesAll := List.forall_mem_append.2
        ⟨List.forall_mem_append.2 ⟨refusesBefore, stands.refuses awaits⟩, refusesAfter⟩
      refine not_contains_of_mem_blocksAll framedAll fun child isChild inside inner within => ?_
      exact not_contains_of_place_eq_none (refusesAll child isChild inside)
        (framedAll child isChild (own_eq_nil_of_mem_blocks within)) inner within
    · exact takes.innermost other old

end

/-- A region in which every comment stands where it should, and the next comment of the source,
which it contains. -/
structure Ready (source : List Token) (remark : Comment) (region : Region) : Prop where
  cut : remark.Cut source
  framed : region.Framed source
  wellPlaced : region.WellPlaced
  before : ∀ earlier ∈ region.comments, earlier.Before remark
  contains : region.span.Contains remark.span

/-- A region that is ready for a comment has children that are, if they contain it. -/
theorem Ready.of_child {child : Region} (ready : region.Ready source remark)
    (inside : child ∈ region.children) (code : child.own = [])
    (contains : child.span.Contains remark.span) : child.Ready source remark :=
  ⟨ready.cut, ready.framed.of_child inside code, ready.wellPlaced.of_child inside,
    fun earlier member => ready.before earlier (comments_subset_of_child inside member), contains⟩

/-- A region of a list may be exchanged for another of which the same holds. -/
theorem forall_mem_exchange {holds : Region → Prop} {front back : List Region}
    {child other : Region} (all : ∀ region ∈ front ++ child :: back, holds region)
    (alsoOther : holds other) : ∀ region ∈ front ++ other :: back, holds region := by
  rw [List.forall_mem_append, List.forall_mem_cons] at all ⊢
  exact ⟨all.1, alsoOther, all.2.2⟩

/-- An item may be exchanged for one with the same blocks. -/
theorem blocksAll_exchange {front back : List Region} {child other : Region}
    (same : other.blocks = child.blocks) :
    blocksAll (front ++ other :: back) = blocksAll (front ++ child :: back) := by
  simp only [blocksAll_append, blocksAll, same]

/-- Once the next comment is put in, it too stands where it should. -/
theorem Placed.wellPlaced (placed : region.Placed remark result)
    (ready : region.Ready source remark) : result.WellPlaced := by
  induction placed with
  | @part span front child result back contains placed inductionHypothesis =>
    have isChild : child ∈ front ++ child :: back := List.mem_append_cons_self
    have child := inductionHypothesis (ready.of_child isChild placed.own_eq_nil.1 contains)
    cases ready.wellPlaced with
    | part children => exact .part (forall_mem_exchange children child)
  | @before span front child result back items after contains placed inductionHypothesis =>
    have isChild : child ∈ (front ++ child :: back) ++ items ++ after :=
      List.mem_append_left _ (List.mem_append_left _ List.mem_append_cons_self)
    have child := inductionHypothesis (ready.of_child isChild placed.own_eq_nil.1 contains)
    cases ready.wellPlaced with
    | block wellBefore wellItems wellAfter takes =>
      refine .block (forall_mem_exchange wellBefore child) wellItems wellAfter (takes.of_blocks ?_)
      rw [blocksAll_append, blocksAll_append, blocksAll_exchange placed.blocks_eq,
        ← blocksAll_append, ← blocksAll_append]
  | @after span before items front child result back contains placed inductionHypothesis =>
    have isChild : child ∈ before ++ items ++ (front ++ child :: back) :=
      List.mem_append_right _ List.mem_append_cons_self
    have child := inductionHypothesis (ready.of_child isChild placed.own_eq_nil.1 contains)
    cases ready.wellPlaced with
    | block wellBefore wellItems wellAfter takes =>
      refine .block wellBefore wellItems (forall_mem_exchange wellAfter child) (takes.of_blocks ?_)
      rw [blocksAll_append, blocksAll_exchange placed.blocks_eq, ← blocksAll_append]
  | @item span before front item result back after contains placed inductionHypothesis =>
    have isItem : item ∈ before ++ (front ++ item :: back) ++ after :=
      List.mem_append_left _ (List.mem_append_right _ List.mem_append_cons_self)
    obtain ⟨code, alsoCode⟩ := placed.own_eq_nil
    have item := inductionHypothesis (ready.of_child isItem code contains)
    cases ready.wellPlaced with
    | block wellBefore wellItems wellAfter takes =>
      exact .block wellBefore (forall_mem_exchange wellItems item) wellAfter
        (takes.of_item placed.span_eq placed.blocks_eq code alsoCode)
  | @listed span before front back after refuses stands =>
    cases ready.wellPlaced with
    | block wellBefore wellItems wellAfter takes =>
      have isItem {item : Region} (member : item ∈ front ++ back) :
          item ∈ before ++ (front ++ back) ++ after :=
        List.mem_append_left _ (List.mem_append_right _ member)
      have isHeader {header : Region} (member : header ∈ before ++ after) :
          header ∈ before ++ (front ++ back) ++ after := by
        rw [List.mem_append] at member
        rw [List.mem_append, List.mem_append]
        exact member.imp_left .inl
      have awaits : Awaits source remark (front ++ back) :=
        ⟨ready.cut, takes.precedes,
          fun item member => ready.framed.of_child (isItem member),
          fun earlier member => ready.before earlier (mem_comments_of_item member)⟩
      obtain ⟨wellFront, wellBack⟩ := List.forall_mem_append.1 wellItems
      exact .block wellBefore
        (List.forall_mem_append.2 ⟨wellFront, List.forall_mem_cons.2 ⟨.comment remark, wellBack⟩⟩)
        wellAfter (stands.takes awaits refuses
          (fun header member => ready.framed.of_child (isHeader member)) ready.contains takes)

/-! ### The innermost block -/

/-- The region is the outer one or lies somewhere inside it. -/
inductive Inside (outer : Region) : Region → Prop
  | self : Inside outer outer
  | child {region child} : Inside outer region → child ∈ region.children → Inside outer child

/-- A comment stands where it belongs, in the list of a block that is inside the outer region, with
items in front of it and behind it. -/
structure Belongs (outer : Region) (span : Span) (before front : List Region) (remark : Comment)
    (back after : List Region) : Prop where
  /-- The block contains the comment. -/
  contains : span.Contains remark.span
  /-- Every other block that contains the comment is one around this block. -/
  innermost : ∀ otherSpan otherBefore otherItems otherAfter,
    Inside outer (.block otherSpan otherBefore otherItems otherAfter) →
      otherSpan.Contains remark.span →
        Inside (.block otherSpan otherBefore otherItems otherAfter)
          (.block span before (front ++ .comment remark :: back) after)
  /-- The items in front of the comment, comments or not, stop before it starts. -/
  front : ∀ item ∈ front, item.span.stop ≤ remark.span.start
  /-- The items behind it start behind it, or contain it without being comments. -/
  back : ∀ item ∈ back,
    remark.span.stop ≤ item.span.start ∨ item.own = [] ∧ item.span.Contains remark.span

section

variable {outer : Region}

theorem Inside.trans {middle inner : Region} (first : Inside outer middle)
    (second : Inside middle inner) : Inside outer inner := by
  induction second with
  | self => exact first
  | child _ isChild inductionHypothesis => exact .child inductionHypothesis isChild

/-- What is inside a region is the region, or inside of what is right inside it. -/
theorem Inside.eq_or_child (inside : Inside outer region) :
    region = outer ∨ ∃ child ∈ outer.children, Inside child region := by
  induction inside with
  | self => exact .inl rfl
  | @child region child _ isChild inductionHypothesis =>
    rcases inductionHypothesis with rfl | ⟨first, isFirst, inside⟩
    · exact .inr ⟨child, isChild, .self⟩
    · exact .inr ⟨first, isFirst, .child inside isChild⟩

/-- The blocks of an inner region are among those of the outer one. -/
theorem Inside.blocks_subset (inside : Inside outer region) : region.blocks ⊆ outer.blocks := by
  induction inside with
  | self => exact fun _ member => member
  | child _ isChild inductionHypothesis =>
    exact fun _ member => inductionHypothesis (blocks_subset_of_child isChild member)

/-- The comments of an inner region are among those of the outer one. -/
theorem Inside.comments_subset (inside : Inside outer region) :
    region.comments ⊆ outer.comments := by
  induction inside with
  | self => exact fun _ member => member
  | child _ isChild inductionHypothesis =>
    exact fun _ member => inductionHypothesis (comments_subset_of_child isChild member)

/-- A comment of a region stands in the list of a block inside it. -/
theorem exists_inside_of_mem_comments (member : remark ∈ outer.comments) :
    ∃ span before front back after,
      Inside outer (.block span before (front ++ .comment remark :: back) after) := by
  induction outer using inductionOnChildren with
  | step outer inductionHypothesis =>
    rcases mem_comments member with ⟨child, isChild, within⟩ |
      ⟨span, before, items, after, rfl, isItem⟩
    · obtain ⟨span, before, front, back, after, inside⟩ := inductionHypothesis child isChild within
      exact ⟨span, before, front, back, after, Inside.trans (.child .self isChild) inside⟩
    · obtain ⟨front, back, rfl⟩ := List.append_of_mem isItem
      exact ⟨span, before, front, back, after, .self⟩

theorem WellPlaced.of_inside (well : outer.WellPlaced) (inside : Inside outer region) :
    region.WellPlaced := by
  induction inside with
  | self => exact well
  | child _ isChild inductionHypothesis => exact inductionHypothesis.of_child isChild

theorem Inside.mem_blocks {span : Span} {before items after : List Region}
    (inside : Inside outer (.block span before items after)) : span ∈ outer.blocks :=
  inside.blocks_subset List.mem_cons_self

/-- The regions do not both contain the span, unless one is a comment. -/
def Excludes (span : Span) (first second : Region) : Prop :=
  first.own = [] → second.own = [] → first.span.Contains span → ¬ second.span.Contains span

instance (span : Span) : Std.Symm (Excludes span) :=
  ⟨fun _ _ excludes second first inSecond inFirst => excludes first second inFirst inSecond⟩

/-- Two regions side by side exclude each other: no span that takes up some of the source lies in
both. -/
theorem Framed.pairwise_excludes (framed : outer.Framed source) {span : Span}
    (start_lt_stop : span.start < span.stop) : outer.children.Pairwise (Excludes span) := by
  refine framed.pairwise_children.imp fun before first second inFirst inSecond => ?_
  have apart := before first second
  obtain ⟨-, within⟩ := inFirst
  obtain ⟨below, -⟩ := inSecond
  rw [Before] at apart
  omega

/-- Where every comment stands as it should, the block that a comment stands in is inside all others
that contain the comment. -/
theorem WellPlaced.inside_of_contains (well : outer.WellPlaced) (framed : outer.Framed source)
    (cut : remark.Cut source)
    {span otherSpan : Span} {before items after otherBefore otherItems otherAfter : List Region}
    (inside : Inside outer (.block span before items after)) (isItem : .comment remark ∈ items)
    (alsoInside : Inside outer (.block otherSpan otherBefore otherItems otherAfter))
    (contains : otherSpan.Contains remark.span) :
    Inside (.block otherSpan otherBefore otherItems otherAfter)
      (.block span before items after) := by
  induction outer using inductionOnChildren with
  | step outer inductionHypothesis =>
    rcases alsoInside.eq_or_child with rfl | ⟨second, isSecond, inSecond⟩
    · exact inside
    rcases inside.eq_or_child with rfl | ⟨first, isFirst, inFirst⟩
    · cases well with
      | block _ _ _ takes =>
        exact absurd contains (takes.innermost remark isItem otherSpan
          (mem_blocksAll.2 ⟨second, isSecond, inSecond.mem_blocks⟩))
    -- Both blocks contain the comment, so they are inside the same of the regions.
    have firstCode := own_eq_nil_of_mem_blocks inFirst.mem_blocks
    have secondCode := own_eq_nil_of_mem_blocks inSecond.mem_blocks
    have firstFramed := framed.of_child isFirst firstCode
    have same : first = second := by
      by_contra different
      have takes : Takes span before items after := by
        cases well.of_inside inside with
        | block _ _ _ takes => exact takes
      obtain ⟨start_le, le_stop⟩ := takes.contains remark isItem
      obtain ⟨firstStart, firstStop⟩ := firstFramed.contains_of_mem_blocks inFirst.mem_blocks
      obtain ⟨secondStart, secondStop⟩ :=
        (framed.of_child isSecond secondCode).contains_of_mem_blocks inSecond.mem_blocks
      exact (framed.pairwise_excludes cut.start_lt_stop).forall isFirst isSecond different firstCode
        secondCode ⟨Nat.le_trans firstStart start_le, Nat.le_trans le_stop firstStop⟩
        ⟨Nat.le_trans secondStart contains.1, Nat.le_trans contains.2 secondStop⟩
    subst same
    exact inductionHypothesis first isFirst (well.of_child isFirst) firstFramed inFirst inSecond

/-- Where every comment stands as it should, it stands where it belongs. -/
theorem WellPlaced.belongs (well : outer.WellPlaced) (framed : outer.Framed source)
    (cut : ∀ remark ∈ outer.comments, remark.Cut source)
    {span : Span} {before front back after : List Region}
    (inside : Inside outer (.block span before (front ++ .comment remark :: back) after)) :
    Belongs outer span before front remark back after := by
  have isItem : Region.comment remark ∈ front ++ .comment remark :: back :=
    List.mem_append_cons_self
  have cutHere := cut remark (inside.comments_subset (mem_comments_of_item isItem))
  cases well.of_inside inside with
  | block _ _ _ takes =>
    obtain ⟨-, inBack, across⟩ := List.pairwise_append.1 takes.precedes
    refine ⟨takes.contains remark isItem, fun _ _ _ _ alsoInside contains =>
      well.inside_of_contains framed cutHere inside isItem alsoInside contains,
      fun item member => ?_, fun item member => ?_⟩
    · rcases across item member _ List.mem_cons_self with stop_le | ⟨-, code, -⟩
      · exact stop_le
      · cases code
    · rcases (List.pairwise_cons.1 inBack).1 item member with stop_le | ⟨-, code, contains⟩
      · exact .inl stop_le
      · exact .inr ⟨code, contains⟩

end

end Region

/-! ### Every comment of a source -/

namespace Chunk

variable {source : List Token} {chunk : Chunk}

/-- The comments after one is placed are that comment and those from before. -/
theorem mem_comments_placeComment {remark other : Comment}
    (member : other ∈ (chunk.placeComment remark).1.region.comments) :
    other = remark ∨ other ∈ chunk.region.comments := by
  have counted := (chunk.gains_placeComment remark).body.count_eq other
  rw [comments_region, ← List.count_pos_iff] at member
  rw [comments_region, ← List.count_pos_iff]
  by_cases same : other = remark
  · exact .inl same
  · rw [List.count_singleton, if_neg (by simpa using Ne.symm same)] at counted
    exact .inr (Nat.lt_of_lt_of_eq member counted)

/-- Comments that are put in from first to last stand where they should. -/
theorem wellPlaced_placeComments {remarks : List Comment}
    (ordered : remarks.Pairwise Comment.Before)
    (cut : ∀ remark ∈ remarks, remark.Cut source)
    (contains : ∀ remark ∈ remarks, chunk.span.Contains remark.span)
    (framed : chunk.region.Framed source) (well : chunk.region.WellPlaced)
    (before : ∀ earlier ∈ chunk.region.comments, ∀ remark ∈ remarks, earlier.Before remark) :
    (chunk.placeComments remarks).1.region.WellPlaced ∧
      (chunk.placeComments remarks).1.region.Framed source := by
  induction remarks generalizing chunk with
  | nil => exact ⟨well, framed⟩
  | cons remark rest inductionHypothesis =>
    obtain ⟨behind, orderedRest⟩ := List.pairwise_cons.1 ordered
    obtain ⟨cutFirst, cutRest⟩ := List.forall_mem_cons.1 cut
    obtain ⟨containsFirst, containsRest⟩ := List.forall_mem_cons.1 contains
    have placed := Region.placed_of_place (chunk.region_placeComment remark)
    have ready : chunk.region.Ready source remark :=
      ⟨cutFirst, framed, well,
        fun earlier member => before earlier member remark List.mem_cons_self, containsFirst⟩
    refine inductionHypothesis orderedRest cutRest containsRest (placed.framed framed)
      (placed.wellPlaced ready) fun earlier member later isLater => ?_
    rcases mem_comments_placeComment member with rfl | old
    · exact behind later isLater
    · exact before earlier old later (List.mem_cons_of_mem _ isLater)

end Chunk

namespace Program

variable {source : List Char} {program : Program}

/-- The comments of a source lie one behind the other. -/
theorem pairwise_commentsOf (source : List Char) :
    (commentsOf source).Pairwise Comment.Before := by
  obtain ⟨inOrder, nonempty⟩ := Token.ordered_ofText source
  refine List.pairwise_map.2 ((inOrder.sublist List.filter_sublist).imp_of_mem ?_)
  intro first second isFirst _ stop_le
  refine ⟨?_, ?_⟩
  · rw [Comment.span_ofToken]
    exact nonempty first (List.mem_of_mem_filter isFirst)
  · rw [Comment.span_ofToken, Comment.span_ofToken]
    exact stop_le

/-- The comments of a source lie where tokens of the source do. -/
theorem cut_of_mem_commentsOf (source : List Char) :
    ∀ remark ∈ commentsOf source, remark.Cut (Token.ofText source) := by
  refine List.forall_mem_map.2 fun token member => ?_
  have inSource := List.mem_of_mem_filter member
  exact ⟨token, inSource, Comment.span_ofToken token,
    (Token.ordered_ofText source).nonempty token inSource⟩

/-- The comments of a source that parses stand where they should once they are put into the tree. -/
theorem wellPlaced_arrange (parsed : parse source = .ok program) :
    program.arrange.region.WellPlaced ∧ program.arrange.region.Framed (Token.ofText source) := by
  have nested := nested_of_parse parsed
  have bare : program.chunk.extendClauses.region.comments = [] := by
    rw [Chunk.comments_region, Chunk.extendClauses, commentsAmong_extendAll,
      commentsAmong_of_parse parsed]
  have cut := cut_of_mem_commentsOf source
  have inOrder := pairwise_commentsOf source
  rw [← (parse_reads parsed).2] at cut inOrder
  refine Chunk.wellPlaced_placeComments inOrder cut (fun remark member => ?_) (nested.keep _)
    (Region.wellPlaced_of_bare nested bare) fun earlier member => by
      rw [bare] at member
      cases member
  obtain ⟨token, inSource, same, -⟩ := cut remark member
  have within := (Token.tiles_ofText source).within token inSource
  have chunkSpan : program.chunk.extendClauses.span = ⟨0, byteLength source⟩ := span_of_parse parsed
  rw [chunkSpan, same]
  exact ⟨Nat.zero_le _, within⟩

/-- Putting comments into a chunk puts each of them there once and changes nothing else. Where the
chunk and the comments are those of a source, each comment stands in the list of a block or table,
and wherever a comment stands, that is the innermost one that contains it, and the comment is in
order with the items and the comments around it. -/
theorem comments_belong :
    (∀ (chunk : Chunk) (comments : List Comment),
      chunk.GainsAll comments (chunk.placeComments comments).1) ∧
    ∀ (source : List Char) (program : Program), parse source = .ok program →
      program.arrange.region.comments.Perm program.comments ∧
      (∀ remark ∈ program.comments, ∃ span before front back after,
        Region.Inside program.arrange.region
          (.block span before (front ++ .comment remark :: back) after)) ∧
      ∀ (span : Span) (before front : List Region) (remark : Comment) (back after : List Region),
        Region.Inside program.arrange.region
            (.block span before (front ++ .comment remark :: back) after) →
          Region.Belongs program.arrange.region span before front remark back after := by
  refine ⟨fun chunk comments => Chunk.gainsAll_placeComments comments chunk,
    fun source program parsed => ?_⟩
  have perm : program.arrange.region.comments.Perm program.comments := by
    rw [Chunk.comments_region]
    exact perm_commentsAmong_arrange parsed
  refine ⟨perm, fun remark member => Region.exists_inside_of_mem_comments (perm.symm.subset member),
    fun span before front remark back after inside => ?_⟩
  obtain ⟨well, framed⟩ := wellPlaced_arrange parsed
  have cut := cut_of_mem_commentsOf source
  rw [← (parse_reads parsed).2] at cut
  exact well.belongs framed (fun remark member => cut remark (perm.subset member)) inside

theorem comments_belong_in_call :
    ∃ program, parse "f( --a\n\x7bx --b\n\x7d)".toList = .ok program ∧
      ∃ remark ∈ program.comments, ∃ span before front back after,
        Region.Inside program.arrange.region
            (.block span before (front ++ .comment remark :: back) after) ∧
          Region.Belongs program.arrange.region span before front remark back after := by
  obtain ⟨program, parsed⟩ := exists_of_isOk
    (show (parse "f( --a\n\x7bx --b\n\x7d)".toList).isOk by decide +kernel)
  obtain ⟨-, stands, belong⟩ := comments_belong.2 _ program parsed
  have two : (commentsOf "f( --a\n\x7bx --b\n\x7d)".toList).length = 2 := by decide +kernel
  rw [← (parse_reads parsed).2] at two
  obtain ⟨remark, member⟩ :=
    List.exists_mem_of_length_pos (Nat.lt_of_lt_of_eq Nat.zero_lt_two two.symm)
  obtain ⟨span, before, front, back, after, inside⟩ := stands remark member
  exact ⟨program, parsed, remark, member, span, before, front, back, after, inside,
    belong span before front remark back after inside⟩

end Program

end LuaStyle
