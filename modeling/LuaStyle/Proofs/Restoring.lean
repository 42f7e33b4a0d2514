/-
This file proves that comments that are taken out of where they stand are put back there.

Where regions are nested with their comments in place, each comment lies in a gap between the items
of its list, and nothing else contains it. So the search goes down to that list, past whatever is
not around the comment, and there it finds the gap again. Which of the other comments are in place
at the time does not matter for this.
-/

import LuaStyle.Proofs.Belonging
import LuaStyle.Proofs.Retrieval

namespace LuaStyle

namespace Region

variable {source : List Token} {remark : Comment} {keeps : Comment → Bool}

/-! ### Keeping one comment more -/

/-- Keeps the comment as well. -/
def alsoKeeping (keeps : Comment → Bool) (remark : Comment) : Comment → Bool :=
  fun other => keeps other || other == remark

/-- Only the comments that are there matter for which are kept. -/
theorem keep_congr {region : Region} {first second : Comment → Bool}
    (same : ∀ other ∈ region.comments, first other = second other) :
    region.keep first = region.keep second := by
  have all {regions : List Region}
      (inside : ∀ child ∈ regions, (∀ other ∈ child.comments, first other = second other) →
        child.keep first = child.keep second)
      (same : ∀ other ∈ commentsAll regions, first other = second other) :
      keepAll first regions = keepAll second regions := by
    rw [keepAll_eq_map, keepAll_eq_map]
    exact List.map_congr_left fun child isChild =>
      inside child isChild fun other member =>
        same other (mem_commentsAll.2 ⟨child, isChild, member⟩)
  induction region with
  | part span children inside => rw [keep, keep, all inside same]
  | block span before items after insideBefore insideItems insideAfter =>
    simp only [comments, List.forall_mem_append] at same
    obtain ⟨⟨sameBefore, sameItems⟩, sameAfter⟩ := same
    have kept : ∀ item ∈ items, item.isKept first = item.isKept second := by
      intro item isItem
      cases item with
      | comment other => exact sameItems other (mem_commentsItems.2 (.inl isItem))
      | _ => rfl
    have itemsSame : keepItems first items = keepItems second items := by
      rw [keepItems_eq_map, keepItems_eq_map, List.filter_congr kept]
      refine List.map_congr_left fun item member => ?_
      have isItem := List.mem_of_mem_filter member
      exact insideItems item isItem fun other within =>
        sameItems other (mem_commentsItems.2 (.inr ⟨item, isItem, within⟩))
    rw [keep, keep, all insideBefore sameBefore, itemsSame, all insideAfter sameAfter]
  | comment remark => rfl

/-- A region contains its comments. -/
theorem Nested.contains_of_mem_comments {region : Region} (nested : region.Nested source)
    (member : remark ∈ region.comments) : region.span.Contains remark.span := by
  induction region using inductionOnChildren with
  | step region inductionHypothesis =>
    rcases mem_comments member with ⟨child, isChild, within⟩ |
      ⟨span, before, items, after, rfl, isItem⟩
    · obtain ⟨below, above⟩ := nested.tidy.contains child isChild
      obtain ⟨start_le, le_stop⟩ :=
        inductionHypothesis child isChild (nested.of_child isChild) within
      exact ⟨Nat.le_trans below start_le, Nat.le_trans le_stop above⟩
    · exact nested.tidy.contains (.comment remark)
        (List.mem_append_left _ (List.mem_append_right _ isItem))

/-! ### Next to a region that contains the comment -/

section

variable {first second : Region} (wide : remark.span.start < remark.span.stop)

include wide

theorem Before.not_contains_second (before : first.Before second)
    (contains : first.span.Contains remark.span) : ¬ second.span.Contains remark.span := by
  intro also
  have stop_le : first.span.stop ≤ second.span.start := before
  obtain ⟨-, le_stop⟩ := contains
  obtain ⟨start_le, -⟩ := also
  omega

theorem Before.not_contains_first (before : first.Before second)
    (contains : second.span.Contains remark.span) : ¬ first.span.Contains remark.span :=
  fun also => before.not_contains_second wide also contains

/-- Of regions in order, only one contains the comment. -/
theorem not_contains_of_pairwise {front back : List Region} {child : Region}
    (pairwise : (front ++ child :: back).Pairwise Before)
    (contains : child.span.Contains remark.span) :
    (∀ other ∈ front, ¬ other.span.Contains remark.span) ∧
      ∀ other ∈ back, ¬ other.span.Contains remark.span := by
  obtain ⟨-, behind, across⟩ := List.pairwise_append.1 pairwise
  exact ⟨fun other isFront =>
      (across other isFront child List.mem_cons_self).not_contains_first wide contains,
    fun other isBack =>
      ((List.pairwise_cons.1 behind).1 other isBack).not_contains_second wide contains⟩

end

/-! ### Regions that do not contain the comment -/

section

variable {regions : List Region} (apart : ∀ child ∈ regions, ¬ child.span.Contains remark.span)

include apart

/-- Regions that do not contain the comment are the same with it and without it. -/
theorem keep_alsoKeeping (nested : ∀ child ∈ regions, child.Nested source) :
    ∀ child ∈ regions, child.keep (alsoKeeping keeps remark) = child.keep keeps := by
  refine fun child isChild => keep_congr fun other member => ?_
  have different : other ≠ remark := by
    rintro rfl
    exact apart child isChild ((nested child isChild).contains_of_mem_comments member)
  rw [alsoKeeping, beq_eq_false_iff_ne.2 different, Bool.or_false]

theorem keepAll_alsoKeeping (nested : ∀ child ∈ regions, child.Nested source) :
    keepAll (alsoKeeping keeps remark) regions = keepAll keeps regions := by
  rw [keepAll_eq_map, keepAll_eq_map]
  exact List.map_congr_left (keep_alsoKeeping apart nested)

theorem keepItems_alsoKeeping (nested : ∀ child ∈ regions, child.Nested source) :
    keepItems (alsoKeeping keeps remark) regions = keepItems keeps regions := by
  have kept : ∀ item ∈ regions,
      item.isKept (alsoKeeping keeps remark) = item.isKept keeps := by
    intro item isItem
    cases item with
    | comment other =>
      have different : other ≠ remark := by
        rintro rfl
        exact apart _ isItem ⟨Nat.le_refl _, Nat.le_refl _⟩
      rw [isKept, isKept, alsoKeeping, beq_eq_false_iff_ne.2 different, Bool.or_false]
    | _ => rfl
  rw [keepItems_eq_map, keepItems_eq_map, List.filter_congr kept]
  exact List.map_congr_left fun item member =>
    keep_alsoKeeping apart nested item (List.mem_of_mem_filter member)

theorem placeFirst_keepAll_eq_none : placeFirst remark (keepAll keeps regions) = none := by
  rw [placeFirst_eq_none_iff, keepAll_eq_map]
  intro region member contains
  obtain ⟨child, isChild, rfl⟩ := List.mem_map.1 member
  rw [span_keep] at contains
  exact absurd contains (apart child isChild)

theorem placeAmong_keepItems_eq_none : placeAmong remark (keepItems keeps regions) = none := by
  rw [placeAmong_eq_none_iff, keepItems_eq_map]
  intro region member
  obtain ⟨child, isChild, rfl⟩ := List.mem_map.1 member
  rw [span_keep]
  exact apart child (List.mem_of_mem_filter isChild)

end

/-! ### The region that contains the comment -/

theorem placeAmong_append (front back : List Region) :
    placeAmong remark (front ++ back) =
      match placeAmong remark front with
      | some placed => some (placed ++ back)
      | none => (placeAmong remark back).map (front ++ ·) := by
  induction front with
  | nil => exact Option.map_id_fun ▸ rfl
  | cons item rest inductionHypothesis =>
    rw [List.cons_append, placeAmong, placeAmong, inductionHypothesis]
    split
    · cases item.place remark <;> rfl
    · cases placeAmong remark rest with
      | some _ => rfl
      | none => exact Option.map_map ..

section

variable {front back : List Region} {child result : Region}
  (apart : ∀ other ∈ front, ¬ other.span.Contains remark.span)
  (contains : child.span.Contains remark.span)
  (placed : (child.keep keeps).place remark = some result)

include apart contains placed

theorem placeFirst_keepAll : placeFirst remark (keepAll keeps (front ++ child :: back)) =
    some (keepAll keeps front ++ result :: keepAll keeps back) := by
  rw [keepAll_append, placeFirst_append, placeFirst_keepAll_eq_none apart, keepAll, placeFirst,
    span_keep, Comment.within, if_pos contains, placed]
  rfl

theorem placeAmong_keepItems (code : child.own = []) :
    placeAmong remark (keepItems keeps (front ++ child :: back)) =
      some (keepItems keeps front ++ result :: keepItems keeps back) := by
  rw [keepItems_append, placeAmong_append, placeAmong_keepItems_eq_none apart, keepItems,
    if_pos (isKept_of_own_eq_nil keeps code), placeAmong, span_keep, if_pos contains, placed]
  rfl

end

/-- A comment that no item contains goes into the gap in which it lies. -/
theorem settle_append {front back : List Region}
    (before : ∀ item ∈ front, item.span.start < remark.span.stop)
    (behind : ∀ item ∈ back, remark.span.stop ≤ item.span.start) :
    settle remark (front ++ back) none = front ++ .comment remark :: back := by
  rw [settle, Comment.indexAmong]
  induction front with
  | nil =>
    cases back with
    | nil => rfl
    | cons item rest =>
      have first := behind item List.mem_cons_self
      rw [List.nil_append, List.map_cons, List.findIdx_cons]
      simp only [first, decide_true, cond_true]
      rfl
  | cons item rest inductionHypothesis =>
    obtain ⟨first, others⟩ := List.forall_mem_cons.1 before
    rw [List.cons_append, List.map_cons, List.findIdx_cons]
    simp only [Nat.not_le.2 first, decide_false, cond_false]
    rw [List.insertIdx_succ_cons, inductionHypothesis others]
    rfl

section

variable {front back : List Region} {child : Region}
  (nested : ∀ other ∈ front ++ child :: back, other.Nested source)
  (apart : (∀ other ∈ front, ¬ other.span.Contains remark.span) ∧
    ∀ other ∈ back, ¬ other.span.Contains remark.span)

include nested apart

theorem keepAll_exchange :
    keepAll (alsoKeeping keeps remark) (front ++ child :: back) =
      keepAll keeps front ++ child.keep (alsoKeeping keeps remark) :: keepAll keeps back := by
  obtain ⟨nestedFront, nestedRest⟩ := List.forall_mem_append.1 nested
  rw [keepAll_append, keepAll, keepAll_alsoKeeping apart.1 nestedFront,
    keepAll_alsoKeeping apart.2 (List.forall_mem_cons.1 nestedRest).2]

theorem keepItems_exchange (kept : child.isKept (alsoKeeping keeps remark) = true) :
    keepItems (alsoKeeping keeps remark) (front ++ child :: back) =
      keepItems keeps front ++ child.keep (alsoKeeping keeps remark) :: keepItems keeps back := by
  obtain ⟨nestedFront, nestedRest⟩ := List.forall_mem_append.1 nested
  rw [keepItems_append, keepItems, if_pos kept, keepItems_alsoKeeping apart.1 nestedFront,
    keepItems_alsoKeeping apart.2 (List.forall_mem_cons.1 nestedRest).2]

end

/-! ### Putting a comment back -/

theorem own_eq_nil_of_mem_comments {region : Region} (member : remark ∈ region.comments) :
    region.own = [] := by
  cases region with
  | comment => cases member
  | _ => rfl

/-- The items of a list that are kept lie where they did. -/
theorem exists_of_mem_keepItems {items : List Region} {item : Region}
    (member : item ∈ keepItems keeps items) : ∃ whole ∈ items, item.span = whole.span := by
  rw [keepItems_eq_map] at member
  obtain ⟨whole, kept, rfl⟩ := List.mem_map.1 member
  exact ⟨whole, List.mem_of_mem_filter kept, span_keep keeps whole⟩

/-- A comment that was taken out of a list is settled there again. -/
theorem settle_keepItems {front back : List Region}
    (nested : ∀ item ∈ front ++ .comment remark :: back, item.Nested source)
    (wide : remark.span.start < remark.span.stop)
    (pairwise : (front ++ .comment remark :: back).Pairwise Before) (out : keeps remark = false) :
    settle remark (keepItems keeps (front ++ .comment remark :: back))
        (placeAmong remark (keepItems keeps (front ++ .comment remark :: back))) =
      keepItems (alsoKeeping keeps remark) (front ++ .comment remark :: back) := by
  have apart := not_contains_of_pairwise wide pairwise ⟨Nat.le_refl _, Nat.le_refl _⟩
  obtain ⟨-, behind, across⟩ := List.pairwise_append.1 pairwise
  have without : keepItems keeps (front ++ .comment remark :: back) =
      keepItems keeps front ++ keepItems keeps back := by
    rw [keepItems_append, keepItems, isKept, out, if_neg Bool.false_ne_true]
  rw [without, ← keepItems_append,
    placeAmong_keepItems_eq_none (List.forall_mem_append.2 apart), keepItems_append,
    keepItems_exchange nested apart (by simp only [isKept, alsoKeeping, beq_self_eq_true,
      Bool.or_true])]
  refine settle_append (fun item member => ?_) fun item member => ?_
  · obtain ⟨whole, isFront, same⟩ := exists_of_mem_keepItems member
    have width := (nested whole (List.mem_append_left _ isFront)).tidy.start_le_stop
    have stop_le : whole.span.stop ≤ remark.span.start := across whole isFront _ List.mem_cons_self
    rw [same]
    omega
  · obtain ⟨whole, isBack, same⟩ := exists_of_mem_keepItems member
    rw [same]
    exact (List.pairwise_cons.1 behind).1 whole isBack

section

variable {regions : List Region} {child : Region} (wide : remark.span.start < remark.span.stop)
  (nested : ∀ region ∈ regions, region.Nested source) (pairwise : regions.Pairwise Before)
  (isChild : child ∈ regions) (within : remark ∈ child.comments)
  (placed : (child.keep keeps).place remark = some (child.keep (alsoKeeping keeps remark)))

include wide nested pairwise isChild within placed

/-- Among regions in order, a comment that is put back into its own one is put back. -/
theorem placeFirst_restores : placeFirst remark (keepAll keeps regions) =
    some (keepAll (alsoKeeping keeps remark) regions) := by
  have contains := (nested child isChild).contains_of_mem_comments within
  obtain ⟨front, back, rfl⟩ := List.append_of_mem isChild
  have apart := not_contains_of_pairwise wide pairwise contains
  rw [placeFirst_keepAll apart.1 contains placed, keepAll_exchange nested apart]

theorem placeAmong_restores : placeAmong remark (keepItems keeps regions) =
    some (keepItems (alsoKeeping keeps remark) regions) := by
  have contains := (nested child isChild).contains_of_mem_comments within
  have code := own_eq_nil_of_mem_comments within
  obtain ⟨front, back, rfl⟩ := List.append_of_mem isChild
  have apart := not_contains_of_pairwise wide pairwise contains
  rw [placeAmong_keepItems apart.1 contains placed code,
    keepItems_exchange nested apart (isKept_of_own_eq_nil _ code)]

end

/-- A comment that was taken out is put back where it stood, whichever other comments are there. -/
theorem place_keep {region : Region} (nested : region.Nested source)
    (wide : remark.span.start < remark.span.stop) (member : remark ∈ region.comments)
    (out : keeps remark = false) :
    (region.keep keeps).place remark = some (region.keep (alsoKeeping keeps remark)) := by
  induction region with
  | part span parts inside =>
    obtain ⟨child, isChild, within⟩ := mem_commentsAll.1 member
    have placed := inside child isChild (nested.of_child isChild) within
    have pairwise : parts.Pairwise Before := nested.tidy.pairwise
    have nestedParts : ∀ part ∈ parts, part.Nested source := fun _ => nested.of_child
    rw [keep, keep, place, placeFirst_restores wide nestedParts pairwise isChild within placed]
    rfl
  | block span before items after insideBefore insideItems insideAfter =>
    have pairwise := nested.tidy.pairwise
    rw [children, List.pairwise_append, List.pairwise_append] at pairwise
    obtain ⟨⟨inBefore, inItems, beforeItems⟩, inAfter, beforeAfter⟩ := pairwise
    have nestedAll (child : Region) (isChild : child ∈ (block span before items after).children) :=
      nested.of_child isChild
    simp only [children, List.forall_mem_append] at nestedAll beforeAfter
    obtain ⟨⟨nestedBefore, nestedItems⟩, nestedAfter⟩ := nestedAll
    simp only [comments, List.mem_append] at member
    rw [keep, keep, place]
    rcases member with (isBefore | isItem) | isAfter
    · obtain ⟨child, isChild, within⟩ := mem_commentsAll.1 isBefore
      have contains := (nestedBefore child isChild).contains_of_mem_comments within
      have placed := insideBefore child isChild (nestedBefore child isChild) within
      rw [keepItems_alsoKeeping (fun other isItem =>
          (beforeItems child isChild other isItem).not_contains_second wide contains) nestedItems,
        keepAll_alsoKeeping (fun other isAfter =>
          (beforeAfter.1 child isChild other isAfter).not_contains_second wide contains)
          nestedAfter,
        placeFirst_restores wide nestedBefore inBefore isChild within placed]
    · have apartOf {item : Region} (isItem : item ∈ items)
          (contains : item.span.Contains remark.span) :
          (∀ other ∈ before, ¬ other.span.Contains remark.span) ∧
            ∀ other ∈ after, ¬ other.span.Contains remark.span :=
        ⟨fun other isBefore =>
            (beforeItems other isBefore item isItem).not_contains_first wide contains,
          fun other isAfter =>
            (beforeAfter.2 item isItem other isAfter).not_contains_second wide contains⟩
      rcases mem_commentsItems.1 isItem with isOwn | ⟨item, isItem, within⟩
      · obtain ⟨apartBefore, apartAfter⟩ := apartOf isOwn ⟨Nat.le_refl _, Nat.le_refl _⟩
        obtain ⟨front, back, rfl⟩ := List.append_of_mem isOwn
        rw [placeFirst_keepAll_eq_none apartBefore, placeFirst_keepAll_eq_none apartAfter,
          settle_keepItems nestedItems wide inItems out,
          keepAll_alsoKeeping apartBefore nestedBefore, keepAll_alsoKeeping apartAfter nestedAfter]
      · have contains := (nestedItems item isItem).contains_of_mem_comments within
        have placed := insideItems item isItem (nestedItems item isItem) within
        obtain ⟨apartBefore, apartAfter⟩ := apartOf isItem contains
        rw [placeFirst_keepAll_eq_none apartBefore, placeFirst_keepAll_eq_none apartAfter,
          placeAmong_restores wide nestedItems inItems isItem within placed,
          keepAll_alsoKeeping apartBefore nestedBefore, keepAll_alsoKeeping apartAfter nestedAfter]
        rfl
    · obtain ⟨child, isChild, within⟩ := mem_commentsAll.1 isAfter
      have contains := (nestedAfter child isChild).contains_of_mem_comments within
      have placed := insideAfter child isChild (nestedAfter child isChild) within
      have apartBefore := fun other isBefore =>
        (beforeAfter.1 other isBefore child isChild).not_contains_first wide contains
      rw [placeFirst_keepAll_eq_none apartBefore, keepItems_alsoKeeping (fun other isItem =>
          (beforeAfter.2 other isItem child isChild).not_contains_first wide contains) nestedItems,
        keepAll_alsoKeeping apartBefore nestedBefore,
        placeFirst_restores wide nestedAfter inAfter isChild within placed]
  | comment => cases member

/-- With all of its comments, a region is what it is. -/
theorem keep_eq_self {region : Region} (all : ∀ other ∈ region.comments, keeps other = true) :
    region.keep keeps = region := by
  refine (keep_congr all).trans ?_
  have same {regions : List Region}
      (inside : ∀ child ∈ regions, child.keep (fun _ => true) = child) :
      keepAll (fun _ => true) regions = regions := by
    rw [keepAll_eq_map]
    exact (List.map_congr_left inside).trans (List.map_id' _)
  have sameItems {items : List Region} (inside : ∀ item ∈ items, item.keep (fun _ => true) = item) :
      keepItems (fun _ => true) items = items := by
    have kept : ∀ item ∈ items, item.isKept (fun _ => true) = true := by
      intro item _
      cases item <;> rfl
    rw [keepItems_eq_map, List.filter_eq_self.2 kept, ← keepAll_eq_map, same inside]
  clear all
  induction region with
  | part span children inside => rw [keep, same inside]
  | block span before items after insideBefore insideItems insideAfter =>
    rw [keep, same insideBefore, sameItems insideItems, same insideAfter]
  | comment remark => rfl

end Region

/-! ### Putting all comments back -/

/-- Comments that were taken out of the regions of a chunk are put back where they stood. -/
theorem Chunk.region_placeComments {source : List Token} {whole : Region}
    (nested : whole.Nested source) {remarks : List Comment} {chunk : Chunk}
    {keeps : Comment → Bool} (same : chunk.region = whole.keep keeps)
    (inOrder : remarks.Pairwise Comment.Before) (cut : ∀ remark ∈ remarks, remark.Cut source)
    (inside : ∀ remark ∈ remarks, remark ∈ whole.comments)
    (out : ∀ remark ∈ remarks, keeps remark = false) :
    (chunk.placeComments remarks).1.region =
      whole.keep fun other => keeps other || remarks.contains other := by
  induction remarks generalizing chunk keeps with
  | nil =>
    rw [placeComments, same]
    exact Region.keep_congr fun other _ => (Bool.or_false _).symm
  | cons remark rest inductionHypothesis =>
    obtain ⟨behind, inOrderRest⟩ := List.pairwise_cons.1 inOrder
    obtain ⟨cutFirst, cutRest⟩ := List.forall_mem_cons.1 cut
    obtain ⟨insideFirst, insideRest⟩ := List.forall_mem_cons.1 inside
    obtain ⟨outFirst, outRest⟩ := List.forall_mem_cons.1 out
    have placed : (chunk.placeComment remark).1.region =
        whole.keep (Region.alsoKeeping keeps remark) := by
      refine Option.some.inj ?_
      rw [← chunk.region_placeComment remark, same,
        Region.place_keep nested cutFirst.start_lt_stop insideFirst outFirst]
    rw [placeComments_cons, inductionHypothesis placed inOrderRest cutRest insideRest ?_]
    · refine Region.keep_congr fun other _ => ?_
      rw [Region.alsoKeeping, List.contains_cons, Bool.or_assoc]
    · intro later isLater
      have different : later ≠ remark := by
        rintro rfl
        obtain ⟨start_lt_stop, stop_le⟩ := behind later isLater
        omega
      rw [Region.alsoKeeping, outRest later isLater, beq_eq_false_iff_ne.2 different]
      rfl

/-- Where statements are read from the tokens of a source, comments among them, and are then left
without the comments, arranging them gives the statements back. -/
theorem Program.arrange_uncommented {strict : Bool} {source : List Char} {body : List Statement}
    (reads : Statement.ReadsBody strict body (Token.ofText source)) :
    (Program.mk ⟨Statement.recastAll .uncommented body, ⟨0, byteLength source⟩⟩
      (commentsOf source)).arrange = (Chunk.mk body ⟨0, byteLength source⟩).extendClauses := by
  generalize made : Program.mk _ _ = program
  have comments : program.comments = commentsOf source := made ▸ rfl
  have chunk : program.chunk =
      ⟨Statement.recastAll .uncommented body, ⟨0, byteLength source⟩⟩ := made ▸ rfl
  set whole := (Chunk.mk body ⟨0, byteLength source⟩).extendClauses with isWhole
  have among : whole.region.comments = commentsOf source := by
    rw [Chunk.comments_region, isWhole, Chunk.extendClauses, Program.commentsAmong_extendAll]
    exact Statement.ReadsBody.commentsFrom body reads
  refine Chunk.eq_of_region ?_ ?_
  · have same : Recasting.uncommented.followedBy .bare = .bare := rfl
    rw [Program.recast_arrange, chunk, Statement.recastAll_recastAll, same]
    exact (Statement.recastAll_extendAll .bare body).symm
  · have nested := Chunk.nested_of_reads reads (List.Sublist.refl _)
    have without : program.chunk.extendClauses.region = whole.region.keep fun _ => false := by
      rw [chunk, Chunk.region_keeping]
    rw [Program.arrange, comments, Chunk.region_placeComments nested without
      (pairwise_commentsOf source) (cut_of_mem_commentsOf source)
      (fun remark member => among ▸ member) fun _ _ => rfl]
    refine Region.keep_eq_self fun other member => ?_
    rw [among] at member
    rw [Bool.false_or, List.contains_iff_mem]
    exact member

end LuaStyle
