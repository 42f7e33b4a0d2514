/-
This file looks at a tree as spans inside spans, and at the search for the place of a comment in it.

To find out where a comment belongs, only two things matter about a node: its span, and whether it
has a list that takes comments. A region keeps just that. It is a node without such a list, a block
with what is in front of its list and behind it, or a comment that stands in a list. Going down to
the place of a comment is one function on regions instead of one for each form of node, and what can
be said about comments and their blocks is said here once for all of them.
-/

import LuaStyle.Comment.Placement
import Mathlib.Data.List.Basic

namespace LuaStyle

/-- A tree of which only spans are looked at. -/
inductive Region where
  /-- A node without a list that takes comments. -/
  | part (span : Span) (children : List Region)
  /-- A node with a list that takes comments, and with what it has in front of the list and behind
  it. -/
  | block (span : Span) (before items after : List Region)
  /-- A comment in a list. -/
  | comment (remark : Comment)

namespace Region

/-- A property of regions holds if it passes from the regions inside a region to the region. -/
@[elab_as_elim, induction_eliminator]
theorem inductionOn {motive : Region → Prop}
    (part : ∀ span children, (∀ child ∈ children, motive child) → motive (.part span children))
    (block : ∀ span before items after, (∀ child ∈ before, motive child) →
      (∀ child ∈ items, motive child) → (∀ child ∈ after, motive child) →
        motive (.block span before items after))
    (comment : ∀ remark, motive (.comment remark)) (region : Region) : motive region :=
  Region.rec part block comment nofun
    (fun _ _ first rest => List.forall_mem_cons.2 ⟨first, rest⟩) region

/-! ### Spans, comments and blocks -/

/-- Where a region lies. -/
def span : Region → Span
  | part span _ | block span _ _ _ => span
  | comment remark => remark.span

/-- The regions right inside a region, in the order of the source. -/
def children : Region → List Region
  | part _ children => children
  | block _ before items after => before ++ items ++ after
  | comment _ => []

/-- The comment that an item of a list is, if it is one. -/
def own : Region → List Comment
  | comment remark => [remark]
  | part .. | block .. => []

mutual

/-- The comments in the lists of a region. -/
def comments : Region → List Comment
  | part _ children => commentsAll children
  | block _ before items after => commentsAll before ++ commentsItems items ++ commentsAll after
  | comment _ => []

/-- The comments in the lists of regions. -/
def commentsAll : List Region → List Comment
  | [] => []
  | region :: rest => region.comments ++ commentsAll rest

/-- The comments of a list, and those in the lists of its items. -/
def commentsItems : List Region → List Comment
  | [] => []
  | item :: rest => item.own ++ item.comments ++ commentsItems rest

end

mutual

/-- The spans of the blocks of a region. -/
def blocks : Region → List Span
  | part _ children => blocksAll children
  | block span before items after =>
    span :: (blocksAll before ++ blocksAll items ++ blocksAll after)
  | comment _ => []

/-- The spans of the blocks of regions. -/
def blocksAll : List Region → List Span
  | [] => []
  | region :: rest => region.blocks ++ blocksAll rest

end

/-- The region is not a comment that is left out. -/
def isKept (keeps : Comment → Bool) : Region → Bool
  | comment remark => keeps remark
  | part .. | block .. => true

section

variable (keeps : Comment → Bool)

mutual

/-- The region with some of its comments only. -/
def keep : Region → Region
  | part span children => .part span (keepAll children)
  | block span before items after =>
    .block span (keepAll before) (keepItems items) (keepAll after)
  | comment remark => .comment remark

/-- The regions with some of their comments only. -/
def keepAll : List Region → List Region
  | [] => []
  | region :: rest => region.keep :: keepAll rest

/-- The items of a list with some of the comments only. -/
def keepItems : List Region → List Region
  | [] => []
  | item :: rest => if item.isKept keeps then item.keep :: keepItems rest else keepItems rest

end

end

/-- The region without its comments. -/
def shape (region : Region) : Region :=
  region.keep fun _ => false

/-! ### Placing a comment -/

section

variable (remark : Comment)

/-- The list with the comment among its items, given the attempt to put it where an item is. -/
def settle (items : List Region) : Option (List Region) → List Region
  | some placed => placed
  | none => items.insertIdx (remark.indexAmong (items.map span)) (.comment remark)

mutual

/-- Puts a comment into the region. -/
def place : Region → Option Region
  | part span children => (placeFirst children).map (.part span)
  | block span before items after =>
    match placeFirst before with
    | some before => some (.block span before items after)
    | none =>
      match placeFirst after with
      | some after => some (.block span before items after)
      | none => some (.block span before (settle remark items (placeAmong items)) after)
  | comment _ => none

/-- Puts a comment into the first region that contains it and has a place for it. -/
def placeFirst : List Region → Option (List Region)
  | [] => none
  | region :: rest =>
    match remark.within region.span region.place with
    | some region => some (region :: rest)
    | none => (placeFirst rest).map (region :: ·)

/-- Puts a comment into, or in front of, the first item that contains it, if one does. -/
def placeAmong : List Region → Option (List Region)
  | [] => none
  | item :: rest =>
    if item.span.Contains remark.span then
      match item.place with
      | some item => some (item :: rest)
      | none => some (.comment remark :: item :: rest)
    else
      (placeAmong rest).map (item :: ·)

end

end

/-- A property of regions holds if it passes from what is right inside a region to the region. -/
theorem inductionOnChildren {motive : Region → Prop}
    (step : ∀ region, (∀ child ∈ region.children, motive child) → motive region)
    (region : Region) : motive region := by
  induction region with
  | part span children inside => exact step _ inside
  | block span before items after insideBefore insideItems insideAfter =>
    exact step _ (List.forall_mem_append.2
      ⟨List.forall_mem_append.2 ⟨insideBefore, insideItems⟩, insideAfter⟩)
  | comment remark => exact step _ nofun

/-! ### Lists of regions -/

theorem commentsAll_eq_flatMap (regions : List Region) :
    commentsAll regions = regions.flatMap comments := by
  induction regions with
  | nil => rfl
  | cons region rest inductionHypothesis => rw [commentsAll, inductionHypothesis, List.flatMap_cons]

theorem commentsItems_eq_flatMap (items : List Region) :
    commentsItems items = items.flatMap fun item => item.own ++ item.comments := by
  induction items with
  | nil => rfl
  | cons item rest inductionHypothesis =>
    rw [commentsItems, inductionHypothesis, List.flatMap_cons]

theorem blocksAll_eq_flatMap (regions : List Region) :
    blocksAll regions = regions.flatMap blocks := by
  induction regions with
  | nil => rfl
  | cons region rest inductionHypothesis => rw [blocksAll, inductionHypothesis, List.flatMap_cons]

theorem keepAll_eq_map (keeps : Comment → Bool) (regions : List Region) :
    keepAll keeps regions = regions.map (keep keeps) := by
  induction regions with
  | nil => rfl
  | cons region rest inductionHypothesis => rw [keepAll, inductionHypothesis, List.map_cons]

theorem keepItems_eq_map (keeps : Comment → Bool) (items : List Region) :
    keepItems keeps items = (items.filter (isKept keeps)).map (keep keeps) := by
  induction items with
  | nil => rfl
  | cons item rest inductionHypothesis =>
    rw [keepItems, inductionHypothesis, List.filter_cons]
    split <;> rfl

theorem commentsAll_append (front back : List Region) :
    commentsAll (front ++ back) = commentsAll front ++ commentsAll back := by
  rw [commentsAll_eq_flatMap, commentsAll_eq_flatMap, commentsAll_eq_flatMap, List.flatMap_append]

theorem commentsAll_eq_nil {regions : List Region}
    (bare : ∀ region ∈ regions, region.comments = []) : commentsAll regions = [] := by
  rw [commentsAll_eq_flatMap, List.flatMap_eq_nil_iff]
  exact bare

theorem mem_commentsAll {regions : List Region} {remark : Comment} :
    remark ∈ commentsAll regions ↔ ∃ region ∈ regions, remark ∈ region.comments := by
  rw [commentsAll_eq_flatMap, List.mem_flatMap]

theorem mem_commentsItems {items : List Region} {remark : Comment} :
    remark ∈ commentsItems items ↔
      .comment remark ∈ items ∨ ∃ item ∈ items, remark ∈ item.comments := by
  rw [commentsItems_eq_flatMap, List.mem_flatMap]
  constructor
  · rintro ⟨item, member, isIn⟩
    rcases List.mem_append.1 isIn with isOwn | inside
    · cases item with
      | comment other =>
        cases List.mem_singleton.1 isOwn
        exact .inl member
      | _ => cases isOwn
    · exact .inr ⟨item, member, inside⟩
  · rintro (member | ⟨item, member, inside⟩)
    · exact ⟨_, member, List.mem_append_left _ (List.mem_singleton_self remark)⟩
    · exact ⟨item, member, List.mem_append_right _ inside⟩

theorem mem_blocksAll {regions : List Region} {span : Span} :
    span ∈ blocksAll regions ↔ ∃ region ∈ regions, span ∈ region.blocks := by
  rw [blocksAll_eq_flatMap, List.mem_flatMap]

theorem blocksAll_append (front back : List Region) :
    blocksAll (front ++ back) = blocksAll front ++ blocksAll back := by
  rw [blocksAll_eq_flatMap, blocksAll_eq_flatMap, blocksAll_eq_flatMap, List.flatMap_append]

theorem keepItems_append (keeps : Comment → Bool) (front back : List Region) :
    keepItems keeps (front ++ back) = keepItems keeps front ++ keepItems keeps back := by
  rw [keepItems_eq_map, keepItems_eq_map, keepItems_eq_map, List.filter_append, List.map_append]

theorem keepAll_append (keeps : Comment → Bool) (front back : List Region) :
    keepAll keeps (front ++ back) = keepAll keeps front ++ keepAll keeps back := by
  rw [keepAll_eq_map, keepAll_eq_map, keepAll_eq_map, List.map_append]

theorem own_eq_nil_of_mem_blocks {region : Region} {inner : Span}
    (member : inner ∈ region.blocks) : region.own = [] := by
  cases region with
  | comment => cases member
  | _ => rfl

theorem isKept_of_own_eq_nil {region : Region} (keeps : Comment → Bool) (code : region.own = []) :
    region.isKept keeps = true := by
  cases region with
  | comment => cases code
  | _ => rfl

/-- The blocks of a region are itself, if it is one, and those of what is inside. -/
theorem mem_blocks {region : Region} {inner : Span} (member : inner ∈ region.blocks) :
    inner = region.span ∨ ∃ child ∈ region.children, inner ∈ child.blocks := by
  cases region with
  | part span children => exact .inr (mem_blocksAll.1 member)
  | block span before items after =>
    rw [blocks, ← blocksAll_append, ← blocksAll_append] at member
    rcases List.mem_cons.1 member with same | inside
    · exact .inl same
    · exact .inr (mem_blocksAll.1 inside)
  | comment remark => cases member

theorem blocks_subset_of_child {region child : Region} (inside : child ∈ region.children) :
    child.blocks ⊆ region.blocks := by
  intro inner member
  cases region with
  | part span children => exact mem_blocksAll.2 ⟨child, inside, member⟩
  | block span before items after =>
    rw [blocks, ← blocksAll_append, ← blocksAll_append]
    exact List.mem_cons_of_mem _ (mem_blocksAll.2 ⟨child, inside, member⟩)
  | comment remark => cases inside

theorem mem_comments_of_item {span : Span} {before items after : List Region} {remark : Comment}
    (member : .comment remark ∈ items) : remark ∈ (block span before items after).comments := by
  rw [comments, List.mem_append, List.mem_append]
  exact .inl (.inr (mem_commentsItems.2 (.inl member)))

/-- The comments of a region are those of its list, if it is a block, and those of what is inside.
-/
theorem mem_comments {region : Region} {remark : Comment} (member : remark ∈ region.comments) :
    (∃ child ∈ region.children, remark ∈ child.comments) ∨
      ∃ span before items after, region = .block span before items after ∧
        .comment remark ∈ items := by
  cases region with
  | part span children => exact .inl (mem_commentsAll.1 member)
  | block span before items after =>
    rw [comments, List.mem_append, List.mem_append] at member
    have inside {child : Region} (isChild : child ∈ before ++ items ++ after)
        (within : remark ∈ child.comments) :
        ∃ child ∈ (block span before items after).children, remark ∈ child.comments :=
      ⟨child, isChild, within⟩
    rcases member with (isBefore | isItem) | isAfter
    · obtain ⟨child, isChild, within⟩ := mem_commentsAll.1 isBefore
      exact .inl (inside (List.mem_append_left _ (List.mem_append_left _ isChild)) within)
    · rcases mem_commentsItems.1 isItem with isOwn | ⟨child, isChild, within⟩
      · exact .inr ⟨span, before, items, after, rfl, isOwn⟩
      · exact .inl (inside (List.mem_append_left _ (List.mem_append_right _ isChild)) within)
    · obtain ⟨child, isChild, within⟩ := mem_commentsAll.1 isAfter
      exact .inl (inside (List.mem_append_right _ isChild) within)
  | comment remark => cases member

theorem comments_subset_of_child {region child : Region} (inside : child ∈ region.children) :
    child.comments ⊆ region.comments := by
  intro remark member
  cases region with
  | part span children => exact mem_commentsAll.2 ⟨child, inside, member⟩
  | block span before items after =>
    rw [comments, List.mem_append, List.mem_append]
    rcases List.mem_append.1 inside with inside | isAfter
    · rcases List.mem_append.1 inside with isBefore | isItem
      · exact .inl (.inl (mem_commentsAll.2 ⟨child, isBefore, member⟩))
      · exact .inl (.inr (mem_commentsItems.2 (.inr ⟨child, isItem, member⟩)))
    · exact .inr (mem_commentsAll.2 ⟨child, isAfter, member⟩)
  | comment remark => cases inside

/-! ### Leaving comments out -/

theorem span_keep (keeps : Comment → Bool) (region : Region) :
    (region.keep keeps).span = region.span := by
  cases region <;> rfl

/-- Blocks are there whichever comments are. -/
theorem blocks_keep (keeps : Comment → Bool) (region : Region) :
    (region.keep keeps).blocks = region.blocks := by
  have all {regions : List Region}
      (same : ∀ child ∈ regions, (child.keep keeps).blocks = child.blocks) :
      blocksAll (keepAll keeps regions) = blocksAll regions := by
    rw [keepAll_eq_map, blocksAll_eq_flatMap, blocksAll_eq_flatMap, List.flatMap_map]
    exact List.flatMap_congr same
  induction region with
  | part span children inside => exact all inside
  | block span before items after insideBefore insideItems insideAfter =>
    have itemBlocks : blocksAll (keepItems keeps items) = blocksAll items := by
      clear insideBefore insideAfter
      induction items with
      | nil => rfl
      | cons item rest inductionHypothesis =>
        obtain ⟨first, others⟩ := List.forall_mem_cons.1 insideItems
        rw [keepItems, blocksAll, ← inductionHypothesis others]
        split
        · rw [blocksAll, first]
        · cases item with
          | comment => rfl
          | _ => contradiction
    rw [keep, blocks, blocks, all insideBefore, itemBlocks, all insideAfter]
  | comment remark => rfl

/-! ### Where a comment goes -/

section

variable {remark : Comment} {regions placed : List Region}

theorem placeFirst_eq_none_iff : placeFirst remark regions = none ↔
    ∀ region ∈ regions, region.span.Contains remark.span → region.place remark = none := by
  induction regions with
  | nil => exact iff_of_true rfl nofun
  | cons region rest inductionHypothesis =>
    rw [List.forall_mem_cons, ← inductionHypothesis, placeFirst, Comment.within]
    by_cases contained : region.span.Contains remark.span
    · rw [if_pos contained]
      cases region.place remark with
      | some _ => exact iff_of_false nofun fun refuse => nomatch refuse.1 contained
      | none => exact Option.map_eq_none_iff.trans (and_iff_right fun _ => rfl).symm
    · rw [if_neg contained]
      exact Option.map_eq_none_iff.trans (and_iff_right fun inside => absurd inside contained).symm

/-- The comment goes into one of the regions, which contains it. -/
theorem exists_of_placeFirst (found : placeFirst remark regions = some placed) :
    ∃ front region result back, regions = front ++ region :: back ∧
      placed = front ++ result :: back ∧ region.span.Contains remark.span ∧
        region.place remark = some result := by
  induction regions generalizing placed with
  | nil => cases found
  | cons region rest inductionHypothesis =>
    rw [placeFirst, Comment.within] at found
    split at found
    next result within =>
      cases found
      split at within
      next contained => exact ⟨[], region, result, rest, rfl, rfl, contained, within⟩
      · cases within
    · obtain ⟨others, foundRest, rfl⟩ := Option.map_eq_some_iff.1 found
      obtain ⟨front, inner, result, back, rfl, rfl, contained, within⟩ :=
        inductionHypothesis foundRest
      exact ⟨region :: front, inner, result, back, rfl, rfl, contained, within⟩

theorem placeAmong_eq_none_iff : placeAmong remark regions = none ↔
    ∀ region ∈ regions, ¬ region.span.Contains remark.span := by
  induction regions with
  | nil => exact iff_of_true rfl nofun
  | cons region rest inductionHypothesis =>
    rw [List.forall_mem_cons, ← inductionHypothesis, placeAmong]
    split
    next contained =>
      refine iff_of_false ?_ fun apart => apart.1 contained
      cases region.place remark <;> exact nofun
    next apart => exact Option.map_eq_none_iff.trans (and_iff_right apart).symm

/-- The comment goes into the first item that contains it, or in front of it. -/
theorem exists_of_placeAmong (found : placeAmong remark regions = some placed) :
    ∃ front item back, regions = front ++ item :: back ∧
      (∀ other ∈ front, ¬ other.span.Contains remark.span) ∧ item.span.Contains remark.span ∧
        ((∃ result, item.place remark = some result ∧ placed = front ++ result :: back) ∨
          item.place remark = none ∧ placed = front ++ .comment remark :: item :: back) := by
  induction regions generalizing placed with
  | nil => cases found
  | cons item rest inductionHypothesis =>
    rw [placeAmong] at found
    split at found
    next contained =>
      refine ⟨[], item, rest, rfl, nofun, contained, ?_⟩
      split at found
      next result within =>
        cases found
        exact .inl ⟨result, within, rfl⟩
      next refused =>
        cases found
        exact .inr ⟨refused, rfl⟩
    next apart =>
      obtain ⟨others, foundRest, rfl⟩ := Option.map_eq_some_iff.1 found
      obtain ⟨front, inner, back, rfl, before, contained, goes⟩ := inductionHypothesis foundRest
      refine ⟨item :: front, inner, back, rfl, List.forall_mem_cons.2 ⟨apart, before⟩,
        contained, ?_⟩
      rcases goes with ⟨result, within, rfl⟩ | ⟨refused, rfl⟩
      · exact .inl ⟨result, within, rfl⟩
      · exact .inr ⟨refused, rfl⟩

/-- A comment that no item contains goes in front of the first item that begins behind it. -/
theorem exists_of_settle (items : List Region) :
    ∃ front back, items = front ++ back ∧
      settle remark items none = front ++ .comment remark :: back ∧
        (∀ item ∈ front, item.span.start < remark.span.stop) ∧
          ∀ item ∈ back.head?, remark.span.stop ≤ item.span.start := by
  induction items with
  | nil => exact ⟨[], [], rfl, rfl, nofun, nofun⟩
  | cons item rest inductionHypothesis =>
    by_cases behind : remark.span.stop ≤ item.span.start
    · refine ⟨[], item :: rest, rfl, ?_, nofun, fun first same => ?_⟩
      · rw [settle, Comment.indexAmong, List.map_cons, List.findIdx_cons]
        simp only [behind, decide_true, cond_true]
        rfl
      · cases same
        exact behind
    · obtain ⟨front, back, rfl, same, before, after⟩ := inductionHypothesis
      refine ⟨item :: front, back, rfl, ?_, List.forall_mem_cons.2
        ⟨Nat.lt_of_not_le behind, before⟩,
        after⟩
      rw [settle, Comment.indexAmong] at same ⊢
      rw [List.map_cons, List.findIdx_cons]
      simp only [behind, decide_false, cond_false]
      rw [List.insertIdx_succ_cons, same]
      rfl

end

end Region

end LuaStyle
