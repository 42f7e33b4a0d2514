/-
This file proves that comments find the same places in a tree that is written elsewhere.

The search for the place of a comment compares ends of spans with ends of the comment. No span of a
tree that was read ends inside a token, and a comment is a token, so every such end lies on one side
of the comment. Moving all offsets without changing their order, and without making a token vanish,
leaves it on that side. So both searches take the same way down, and they do so for one comment
after the other, since the comments that were put in are tokens themselves.
-/

import LuaStyle.Proofs.Belonging
import LuaStyle.Proofs.Relocation
import LuaStyle.Proofs.Transcription

namespace LuaStyle

variable {source : List Token} {remark : Comment}

/-! ### Ends of spans and tokens -/

namespace Region

/-- Neither the region nor anything inside it, comments included, starts or ends inside a token. -/
inductive Uncut (source : List Token) : Region → Prop
  | intro {region} : Token.Between source region.span.start →
    Token.Between source region.span.stop → (∀ child ∈ region.children, Uncut source child) →
      Uncut source region

variable {region result : Region}

theorem Uncut.starts (uncut : region.Uncut source) : Token.Between source region.span.start := by
  cases uncut with
  | intro starts _ _ => exact starts

theorem Uncut.stops (uncut : region.Uncut source) : Token.Between source region.span.stop := by
  cases uncut with
  | intro _ stops _ => exact stops

theorem Uncut.inside (uncut : region.Uncut source) :
    ∀ child ∈ region.children, child.Uncut source := by
  cases uncut with
  | intro _ _ inside => exact inside

theorem Nested.uncut (nested : region.Nested source) : region.Uncut source := by
  induction nested with
  | intro tidy _ inside => exact .intro tidy.starts tidy.stops inside

theorem uncut_comment (ordered : Token.Ordered source) (cut : remark.Cut source) :
    (comment remark).Uncut source := by
  obtain ⟨token, member, same, -⟩ := cut
  obtain ⟨starts, stops⟩ := ordered.between_of_mem member
  exact .intro (by rwa [span, same]) (by rwa [span, same]) nofun

/-- Putting a comment into a region cuts no token. -/
theorem Placed.uncut (placed : region.Placed remark result)
    (remarkUncut : (comment remark).Uncut source) (uncut : region.Uncut source) :
    result.Uncut source := by
  induction placed with
  | @part span front child other back contains placed inductionHypothesis =>
    have other := inductionHypothesis (uncut.inside child List.mem_append_cons_self)
    exact .intro uncut.starts uncut.stops (forall_mem_exchange uncut.inside other)
  | @before span front child other back items after contains placed inductionHypothesis =>
    obtain ⟨inFront, uncutAfter⟩ := List.forall_mem_append.1 uncut.inside
    obtain ⟨uncutBefore, uncutItems⟩ := List.forall_mem_append.1 inFront
    have other := inductionHypothesis (uncutBefore child List.mem_append_cons_self)
    exact .intro uncut.starts uncut.stops (List.forall_mem_append.2 ⟨List.forall_mem_append.2
      ⟨forall_mem_exchange uncutBefore other, uncutItems⟩, uncutAfter⟩)
  | @after span before items front child other back contains placed inductionHypothesis =>
    obtain ⟨inFront, uncutAfter⟩ := List.forall_mem_append.1 uncut.inside
    have other := inductionHypothesis (uncutAfter child List.mem_append_cons_self)
    exact .intro uncut.starts uncut.stops (List.forall_mem_append.2
      ⟨inFront, forall_mem_exchange uncutAfter other⟩)
  | @item span before front item other back after contains placed inductionHypothesis =>
    obtain ⟨inFront, uncutAfter⟩ := List.forall_mem_append.1 uncut.inside
    obtain ⟨uncutBefore, uncutItems⟩ := List.forall_mem_append.1 inFront
    have other := inductionHypothesis (uncutItems item List.mem_append_cons_self)
    exact .intro uncut.starts uncut.stops (List.forall_mem_append.2 ⟨List.forall_mem_append.2
      ⟨uncutBefore, forall_mem_exchange uncutItems other⟩, uncutAfter⟩)
  | @listed span before front back after refuses stands =>
    obtain ⟨inFront, uncutAfter⟩ := List.forall_mem_append.1 uncut.inside
    obtain ⟨uncutBefore, uncutItems⟩ := List.forall_mem_append.1 inFront
    obtain ⟨uncutFront, uncutBack⟩ := List.forall_mem_append.1 uncutItems
    have listed := List.forall_mem_append.2
      ⟨uncutFront, List.forall_mem_cons.2 ⟨remarkUncut, uncutBack⟩⟩
    exact .intro uncut.starts uncut.stops (List.forall_mem_append.2
      ⟨List.forall_mem_append.2 ⟨uncutBefore, listed⟩, uncutAfter⟩)

end Region

/-! ### The search for a place -/

namespace Transcription

variable {transcription : Transcription}

/-- The tokens take up some of the source also where they are written elsewhere. -/
def Widens (transcription : Transcription) (source : List Token) : Prop :=
  ∀ token ∈ source, transcription.place token.start < transcription.place token.stop

theorem recastItems_eq_map (items : List Region) :
    Region.recastItems transcription.recasting items =
      items.map (Region.recast transcription.recasting) := by
  induction items with
  | nil => rfl
  | cons item rest inductionHypothesis =>
    rw [Region.recastItems, inductionHypothesis, List.map_cons]
    cases item <;> rfl

theorem span_recast (region : Region) :
    (region.recast transcription.recasting).span = transcription.span region.span := by
  cases region <;> rfl

section

variable (wide : transcription.Widens source) (cut : remark.Cut source)

include wide cut

/-- An end of a span lies behind a comment exactly when it does elsewhere. -/
theorem stop_le_place_iff {offset : Nat} (between : Token.Between source offset) :
    transcription.place remark.span.stop ≤ transcription.place offset ↔
      remark.span.stop ≤ offset := by
  refine ⟨fun behind => ?_, fun behind => transcription.monotone behind⟩
  obtain ⟨token, member, same, -⟩ := cut
  rw [same] at behind ⊢
  refine (between token member).resolve_right fun inFront => ?_
  have width := wide token member
  have order := transcription.monotone inFront
  have behind : transcription.place token.stop ≤ transcription.place offset := behind
  omega

/-- An end of a span lies in front of a comment exactly when it does elsewhere. -/
theorem place_le_start_iff {offset : Nat} (between : Token.Between source offset) :
    transcription.place offset ≤ transcription.place remark.span.start ↔
      offset ≤ remark.span.start := by
  refine ⟨fun inFront => ?_, fun inFront => transcription.monotone inFront⟩
  obtain ⟨token, member, same, -⟩ := cut
  rw [same] at inFront ⊢
  refine (between token member).resolve_left fun behind => ?_
  have width := wide token member
  have order := transcription.monotone behind
  have inFront : transcription.place offset ≤ transcription.place token.start := inFront
  omega

theorem contains_iff {region : Region} (uncut : region.Uncut source) :
    (region.recast transcription.recasting).span.Contains (transcription.comment remark).span ↔
      region.span.Contains remark.span := by
  rw [span_recast]
  exact and_congr (place_le_start_iff wide cut uncut.starts)
    (stop_le_place_iff wide cut uncut.stops)

theorem within_recast {Placed : Type} {region : Region} (uncut : region.Uncut source)
    (attempt : Option Placed) :
    (transcription.comment remark).within (region.recast transcription.recasting).span attempt =
      remark.within region.span attempt :=
  if_congr (contains_iff wide cut uncut) rfl rfl

variable {regions : List Region} (uncut : ∀ region ∈ regions, region.Uncut source)

include uncut

/-- The first item behind a comment is the first one behind it elsewhere. -/
theorem indexAmong_recast :
    (transcription.comment remark).indexAmong
        ((regions.map (Region.recast transcription.recasting)).map Region.span) =
      remark.indexAmong (regions.map Region.span) := by
  induction regions with
  | nil => rfl
  | cons region rest inductionHypothesis =>
    obtain ⟨first, others⟩ := List.forall_mem_cons.1 uncut
    have same := inductionHypothesis others
    have starts := stop_le_place_iff wide cut first.starts
    unfold Comment.indexAmong at same ⊢
    rw [List.map_cons, List.map_cons, List.map_cons, List.findIdx_cons, List.findIdx_cons, same,
      span_recast]
    exact congrArg (cond · 0 _) (decide_eq_decide.2 starts)

variable (found : ∀ region ∈ regions,
  (region.recast transcription.recasting).place (transcription.comment remark) =
    (region.place remark).map (Region.recast transcription.recasting))

include found

theorem placeFirst_recast :
    Region.placeFirst (transcription.comment remark)
        (regions.map (Region.recast transcription.recasting)) =
      (Region.placeFirst remark regions).map
        (List.map (Region.recast transcription.recasting)) := by
  induction regions with
  | nil => rfl
  | cons region rest inductionHypothesis =>
    obtain ⟨uncutFirst, uncutRest⟩ := List.forall_mem_cons.1 uncut
    obtain ⟨foundFirst, foundRest⟩ := List.forall_mem_cons.1 found
    have same := inductionHypothesis uncutRest foundRest
    rw [List.map_cons, Region.placeFirst, Region.placeFirst, same, foundFirst,
      within_recast wide cut uncutFirst, ← Comment.map_within]
    cases remark.within region.span (region.place remark) with
    | some placed => rfl
    | none => cases Region.placeFirst remark rest <;> rfl

theorem placeAmong_recast :
    Region.placeAmong (transcription.comment remark)
        (regions.map (Region.recast transcription.recasting)) =
      (Region.placeAmong remark regions).map
        (List.map (Region.recast transcription.recasting)) := by
  induction regions with
  | nil => rfl
  | cons region rest inductionHypothesis =>
    obtain ⟨uncutFirst, uncutRest⟩ := List.forall_mem_cons.1 uncut
    obtain ⟨foundFirst, foundRest⟩ := List.forall_mem_cons.1 found
    have same := inductionHypothesis uncutRest foundRest
    rw [List.map_cons, Region.placeAmong, Region.placeAmong, same, foundFirst,
      if_congr (contains_iff wide cut uncutFirst) rfl rfl]
    split
    · cases region.place remark <;> rfl
    · cases Region.placeAmong remark rest <;> rfl

theorem settle_recast :
    Region.settle (transcription.comment remark)
        (regions.map (Region.recast transcription.recasting))
        (Region.placeAmong (transcription.comment remark)
          (regions.map (Region.recast transcription.recasting))) =
      (Region.settle remark regions (Region.placeAmong remark regions)).map
        (Region.recast transcription.recasting) := by
  rw [placeAmong_recast wide cut uncut found]
  cases Region.placeAmong remark regions with
  | some placed => rfl
  | none =>
    rw [Option.map_none, Region.settle, Region.settle, indexAmong_recast wide cut uncut,
      List.map_insertIdx]
    rfl

omit uncut found

/-- Putting a comment into a region that is written elsewhere is putting it into the region. -/
theorem place_recast {region : Region} (uncut : region.Uncut source) :
    (region.recast transcription.recasting).place (transcription.comment remark) =
      (region.place remark).map (Region.recast transcription.recasting) := by
  induction region with
  | part span children inside =>
    have uncutChildren : ∀ child ∈ children, child.Uncut source := uncut.inside
    rw [Region.recast, Region.recastAll_eq_map, Region.place, Region.place,
      placeFirst_recast wide cut uncutChildren fun child member =>
        inside child member (uncutChildren child member)]
    cases Region.placeFirst remark children with
    | some placed => exact congrArg _ (congrArg _ (Region.recastAll_eq_map _ placed).symm)
    | none => rfl
  | block span before items after insideBefore insideItems insideAfter =>
    obtain ⟨inFront, uncutAfter⟩ := List.forall_mem_append.1 uncut.inside
    obtain ⟨uncutBefore, uncutItems⟩ := List.forall_mem_append.1 inFront
    rw [Region.recast, Region.recastAll_eq_map, Region.recastAll_eq_map, recastItems_eq_map,
      Region.place, Region.place,
      placeFirst_recast wide cut uncutBefore fun child member =>
        insideBefore child member (uncutBefore child member),
      placeFirst_recast wide cut uncutAfter fun child member =>
        insideAfter child member (uncutAfter child member),
      settle_recast wide cut uncutItems fun child member =>
        insideItems child member (uncutItems child member)]
    cases Region.placeFirst remark before with
    | some placed =>
      simp only [Option.map_some, Region.recast, Region.recastAll_eq_map, recastItems_eq_map]
    | none =>
      cases Region.placeFirst remark after <;>
        simp only [Option.map_some, Option.map_none, Region.recast, Region.recastAll_eq_map,
          recastItems_eq_map]
  | comment other => rfl

end

/-! ### All comments of a program -/

/-- Where tokens of the source are comments, putting these into a chunk that is written elsewhere is
putting them into the chunk. -/
theorem region_placeComments {remarks : List Comment} {chunk copy : Chunk}
    (wide : transcription.Widens source) (ordered : Token.Ordered source)
    (cut : ∀ remark ∈ remarks, remark.Cut source) (uncut : chunk.region.Uncut source)
    (same : copy.region = chunk.region.recast transcription.recasting) :
    (copy.placeComments (remarks.map transcription.comment)).1.region =
      (chunk.placeComments remarks).1.region.recast transcription.recasting := by
  induction remarks generalizing chunk copy with
  | nil => exact same
  | cons remark rest inductionHypothesis =>
    obtain ⟨cutFirst, cutRest⟩ := List.forall_mem_cons.1 cut
    have placed := Region.placed_of_place (chunk.region_placeComment remark)
    have next : (copy.placeComment (transcription.comment remark)).1.region =
        (chunk.placeComment remark).1.region.recast transcription.recasting := by
      refine Option.some.inj ?_
      rw [← copy.region_placeComment, same, place_recast wide cutFirst uncut,
        chunk.region_placeComment]
      rfl
    exact inductionHypothesis cutRest
      (placed.uncut (Region.uncut_comment ordered cutFirst) uncut) next

end Transcription

end LuaStyle
