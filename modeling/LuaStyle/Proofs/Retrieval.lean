/-
This file proves that what a tree has lost with its comments can be told from its regions.

A tree without its comments has the regions that are left when the comments are taken out of its
regions, and a tree is determined by its regions together with what it says when spans and comments
are not looked at. So a tree that its comments were taken out of and put back into is the tree it
was if only its regions are what they were.
-/

import LuaStyle.Proofs.Relocation
import LuaStyle.Proofs.Uncommented

namespace LuaStyle

/-! ### Taking comments out -/

section

variable (keeps : Comment → Bool)

theorem Recasting.comment_keeping (remark : Comment) :
    (keeping keeps).comment remark = if keeps remark then some remark else none := rfl

theorem Region.recastAll_keeping {regions : List Region}
    (same : ∀ region ∈ regions, region.recast (.keeping keeps) = region.keep keeps) :
    recastAll (.keeping keeps) regions = keepAll keeps regions := by
  rw [recastAll_eq_map, keepAll_eq_map]
  exact List.map_congr_left same

theorem Region.recastItems_keeping {items : List Region}
    (same : ∀ item ∈ items, item.recast (.keeping keeps) = item.keep keeps) :
    recastItems (.keeping keeps) items = keepItems keeps items := by
  induction items with
  | nil => rfl
  | cons item rest inductionHypothesis =>
    obtain ⟨first, others⟩ := List.forall_mem_cons.1 same
    rw [recastItems, keepItems, first, inductionHypothesis others]
    cases item with
    | comment remark =>
      rw [listed, isKept, Recasting.comment_keeping]
      cases keeps remark <;> rfl
    | _ => rfl

/-- Keeping some of the comments of a tree is keeping the same comments of its regions. -/
theorem Region.recast_keeping (region : Region) :
    region.recast (.keeping keeps) = region.keep keeps := by
  induction region with
  | part span children inside => exact congrArg _ (recastAll_keeping keeps inside)
  | block span before items after insideBefore insideItems insideAfter =>
    rw [recast, keep, recastAll_keeping keeps insideBefore, recastItems_keeping keeps insideItems,
      recastAll_keeping keeps insideAfter]
    rfl
  | comment remark =>
    rw [recast, Recasting.comment_keeping]
    split <;> rfl

/-- Without some of its comments, a chunk has the regions without these. -/
theorem Chunk.region_keeping (body : List Statement) (span : Span) :
    (Chunk.mk (Statement.recastAll (.keeping keeps) body) span).extendClauses.region =
      (Chunk.mk body span).extendClauses.region.keep keeps := by
  have same : (Chunk.mk body span).recast (.keeping keeps) =
      ⟨Statement.recastAll (.keeping keeps) body, span⟩ := rfl
  have stays (span : Span) : (Recasting.keeping keeps).span span =
      ⟨id span.start, id span.stop⟩ := rfl
  rw [← same, Chunk.extendClauses_recast stays, Chunk.region_recast, Region.recast_keeping]

end

/-! ### Trees with the same regions -/

/-- Two lists are the same if they are so in two ways that together determine the members. -/
theorem eq_of_map_eq {Item First Second : Type} {left : Item → First} {right : Item → Second}
    (determined : ∀ item other, left item = left other → right item = right other → item = other)
    {items others : List Item} (leftSame : items.map left = others.map left)
    (rightSame : items.map right = others.map right) : items = others := by
  induction items generalizing others with
  | nil => exact (List.map_eq_nil_iff.1 leftSame.symm).symm
  | cons item rest inductionHypothesis =>
    cases others with
    | nil => cases leftSame
    | cons other more =>
      obtain ⟨leftFirst, leftRest⟩ := List.cons.inj leftSame
      obtain ⟨rightFirst, rightRest⟩ := List.cons.inj rightSame
      rw [determined item other leftFirst rightFirst, inductionHypothesis leftRest rightRest]

/-- Lists of regions that start with those of as many items start with the same regions. -/
theorem append_inj_of_map_eq {Item Image : Type} {image : Item → Image} {region : Item → Region}
    {items others : List Item} {rest more : List Region}
    (same : items.map image = others.map image)
    (regions : items.map region ++ rest = others.map region ++ more) :
    items.map region = others.map region ∧ rest = more := by
  refine List.append_inj regions ?_
  rw [List.length_map, List.length_map, ← List.length_map image, same, List.length_map]

theorem Name.eq_of_region (first second : Name) (same : first.recast .bare = second.recast .bare)
    (regions : first.region = second.region) : first = second := by
  obtain ⟨text, span⟩ := first
  obtain ⟨otherText, otherSpan⟩ := second
  cases (Name.mk.inj same).1
  cases (Region.part.inj regions).1
  rfl

theorem Parameter.eq_of_region (first second : Parameter)
    (same : first.recast .bare = second.recast .bare)
    (regions : first.region = second.region) : first = second := by
  have spans : first.span = second.span := (Region.part.inj regions).1
  cases first with
  | name identifier =>
    cases second with
    | name other =>
      exact congrArg _ (identifier.eq_of_region other (Parameter.name.inj same)
        (congrArg (Region.part · []) spans))
    | vararg _ => cases same
  | vararg span =>
    cases second with
    | name _ => cases same
    | vararg otherSpan => exact congrArg _ spans

theorem FunctionName.eq_of_region {first second : FunctionName}
    (same : first.recast .bare = second.recast .bare)
    (regions : first.region = second.region) : first = second := by
  obtain ⟨path, method, span⟩ := first
  obtain ⟨otherPath, otherMethod, otherSpan⟩ := second
  obtain ⟨samePath, sameMethod, -⟩ := FunctionName.mk.inj same
  obtain ⟨rfl, parts⟩ := Region.part.inj regions
  obtain ⟨pathRegions, methodRegions⟩ := append_inj_of_map_eq samePath parts
  cases (eq_of_map_eq Name.eq_of_region samePath pathRegions : path = otherPath)
  cases method with
  | none =>
    cases otherMethod with
    | none => rfl
    | some _ => cases sameMethod
  | some selector =>
    cases otherMethod with
    | none => cases sameMethod
    | some other =>
      rw [selector.eq_of_region other (Option.some.inj sameMethod)
        (List.cons.inj methodRegions).1]

/-- The regions of the name in a head tell where the other regions begin. -/
theorem FunctionHead.eq_of_regions {first second : FunctionHead} {rest others : List Region}
    (same : first.recast .bare = second.recast .bare)
    (regions : first.regions ++ rest = second.regions ++ others) :
    first = second ∧ rest = others := by
  obtain ⟨name, isLocal⟩ := first
  obtain ⟨otherName, otherLocal⟩ := second
  obtain ⟨sameName, rfl⟩ := FunctionHead.mk.inj same
  cases name with
  | none =>
    cases otherName with
    | none => exact ⟨rfl, regions⟩
    | some _ => cases sameName
  | some name =>
    cases otherName with
    | none => cases sameName
    | some other =>
      obtain ⟨sameRegion, behind⟩ := List.cons.inj regions
      rw [FunctionName.eq_of_region (Option.some.inj sameName) sameRegion]
      exact ⟨rfl, behind⟩

theorem Literal.eq_of_region {first second : Literal}
    (same : first.recast .bare = second.recast .bare)
    (regions : first.region = second.region) : first = second := by
  obtain ⟨value, raw, span⟩ := first
  obtain ⟨otherValue, otherRaw, otherSpan⟩ := second
  obtain ⟨rfl, rawSame, -⟩ := Literal.mk.inj same
  cases (Region.part.inj regions).1
  cases rawSame
  rfl

theorem Field.length_recast_bare (field : Field) :
    (field.recast .bare).length = (field.region.isKept fun _ => false).toNat := by
  cases field <;> rfl

theorem Statement.length_recast_bare (statement : Statement) :
    (statement.recast .bare).length = (statement.region.isKept fun _ => false).toNat := by
  cases statement with
  | label => rfl
  | _ => rfl

section

variable {first second : List Expression} {rest more : List Region}

theorem Expression.append_regions_inj
    (same : recastAll .bare first = recastAll .bare second)
    (regions : Expression.regions first ++ rest = Expression.regions second ++ more) :
    Expression.regions first = Expression.regions second ∧ rest = more := by
  rw [recastAll_eq_map, recastAll_eq_map] at same
  rw [regions_eq_map, regions_eq_map] at regions ⊢
  exact append_inj_of_map_eq same regions

end

mutual

/-- An expression is determined by its regions and by what it says apart from them. -/
theorem Expression.eq_of_region : ∀ first second : Expression,
    first.recast .bare = second.recast .bare → first.region = second.region → first = second
  | .binary operator left right span, second, same, regions => by
    cases second with
    | binary =>
      simp only [Expression.recast, Expression.binary.injEq] at same
      simp only [Expression.region, Region.part.injEq, List.cons.injEq] at regions
      rw [same.1, left.eq_of_region _ same.2.1 regions.2.1,
        right.eq_of_region _ same.2.2.1 regions.2.2.1, regions.1]
    | _ => simp only [Expression.recast, reduceCtorEq] at same
  | .unary operator argument span, second, same, regions => by
    cases second with
    | unary =>
      simp only [Expression.recast, Expression.unary.injEq] at same
      simp only [Expression.region, Region.part.injEq, List.cons.injEq] at regions
      rw [same.1, argument.eq_of_region _ same.2.1 regions.2.1, regions.1]
    | _ => simp only [Expression.recast, reduceCtorEq] at same
  | .call base arguments span, second, same, regions => by
    cases second with
    | call =>
      simp only [Expression.recast, Expression.call.injEq] at same
      simp only [Expression.region, Region.part.injEq, List.cons.injEq] at regions
      rw [base.eq_of_region _ same.1 regions.2.1,
        Expression.eq_of_regions arguments _ same.2.1 regions.2.2, regions.1]
    | _ => simp only [Expression.recast, reduceCtorEq] at same
  | .stringCall base argument span, second, same, regions => by
    cases second with
    | stringCall =>
      simp only [Expression.recast, Expression.stringCall.injEq] at same
      simp only [Expression.region, Region.part.injEq, List.cons.injEq] at regions
      rw [base.eq_of_region _ same.1 regions.2.1,
        Literal.eq_of_region same.2.1 regions.2.2.1, regions.1]
    | _ => simp only [Expression.recast, reduceCtorEq] at same
  | .tableCall base fields tableSpan span, second, same, regions => by
    cases second with
    | tableCall =>
      simp only [Expression.recast, Expression.tableCall.injEq] at same
      simp only [Expression.region, Region.part.injEq, Region.block.injEq,
        List.cons.injEq] at regions
      rw [base.eq_of_region _ same.1 regions.2.1,
        Field.eq_of_regions fields _ same.2.1 regions.2.2.1.2.2.1, regions.2.2.1.1, regions.1]
    | _ => simp only [Expression.recast, reduceCtorEq] at same
  | .function head parameters body span, second, same, regions => by
    cases second with
    | function =>
      simp only [Expression.recast, Expression.function.injEq] at same
      simp only [Expression.region, Region.block.injEq] at regions
      obtain ⟨sameHead, behind⟩ := FunctionHead.eq_of_regions same.1 regions.2.1
      rw [sameHead, eq_of_map_eq Parameter.eq_of_region same.2.1 behind,
        Statement.eq_of_regions body _ same.2.2.1 regions.2.2.1, regions.1]
    | _ => simp only [Expression.recast, reduceCtorEq] at same
  | .group inner span, second, same, regions => by
    cases second with
    | group =>
      simp only [Expression.recast, Expression.group.injEq] at same
      simp only [Expression.region, Region.part.injEq, List.cons.injEq] at regions
      rw [inner.eq_of_region _ same.1 regions.2.1, regions.1]
    | _ => simp only [Expression.recast, reduceCtorEq] at same
  | .name identifier, second, same, regions => by
    cases second with
    | name other =>
      simp only [Expression.recast, Expression.name.injEq] at same
      rw [identifier.eq_of_region other same regions]
    | _ => simp only [Expression.recast, reduceCtorEq] at same
  | .index base key span, second, same, regions => by
    cases second with
    | index =>
      simp only [Expression.recast, Expression.index.injEq] at same
      simp only [Expression.region, Region.part.injEq, List.cons.injEq] at regions
      rw [base.eq_of_region _ same.1 regions.2.1, key.eq_of_region _ same.2.1 regions.2.2.1,
        regions.1]
    | _ => simp only [Expression.recast, reduceCtorEq] at same
  | .member base selector name span, second, same, regions => by
    cases second with
    | member =>
      simp only [Expression.recast, Expression.member.injEq] at same
      simp only [Expression.region, Region.part.injEq, List.cons.injEq] at regions
      rw [base.eq_of_region _ same.1 regions.2.1, same.2.1,
        name.eq_of_region _ same.2.2.1 regions.2.2.1, regions.1]
    | _ => simp only [Expression.recast, reduceCtorEq] at same
  | .literal constant, second, same, regions => by
    cases second with
    | literal other =>
      simp only [Expression.recast, Expression.literal.injEq] at same
      rw [Literal.eq_of_region same regions]
    | _ => simp only [Expression.recast, reduceCtorEq] at same
  | .table fields span, second, same, regions => by
    cases second with
    | table =>
      simp only [Expression.recast, Expression.table.injEq] at same
      simp only [Expression.region, Region.block.injEq] at regions
      rw [Field.eq_of_regions fields _ same.1 regions.2.2.1, regions.1]
    | _ => simp only [Expression.recast, reduceCtorEq] at same
termination_by structural first => first

theorem Expression.eq_of_regions : ∀ first second : List Expression,
    Expression.recastAll .bare first = Expression.recastAll .bare second →
      Expression.regions first = Expression.regions second → first = second
  | [], second, same, _ => ((Expression.recastAll_eq_nil_iff .bare second).1 same.symm).symm
  | expression :: rest, second, same, regions => by
    cases second with
    | nil => cases same
    | cons =>
      simp only [Expression.recastAll, List.cons.injEq] at same
      simp only [Expression.regions, List.cons.injEq] at regions
      rw [expression.eq_of_region _ same.1 regions.1,
        Expression.eq_of_regions rest _ same.2 regions.2]
termination_by structural first => first

theorem Expression.eq_of_regionsOfOptional : ∀ first second : Option Expression,
    Expression.recastOptional .bare first = Expression.recastOptional .bare second →
      Expression.regionsOfOptional first = Expression.regionsOfOptional second → first = second
  | none, second, same, _ => by
    cases second with
    | none => rfl
    | some _ => cases same
  | some expression, second, same, regions => by
    cases second with
    | none => cases same
    | some other =>
      rw [expression.eq_of_region other (Option.some.inj same) (List.cons.inj regions).1]
termination_by structural first => first

/-- A field is determined by its regions and by what it says apart from them. -/
theorem Field.eq_of_region : ∀ first second : Field,
    first.recast .bare = second.recast .bare → first.region = second.region → first = second
  | .keyed key value span, second, same, regions => by
    cases second with
    | keyed =>
      simp only [Field.recast, List.cons.injEq, Field.keyed.injEq] at same
      simp only [Field.region, Region.part.injEq, List.cons.injEq] at regions
      rw [key.eq_of_region _ same.1.1 regions.2.1, value.eq_of_region _ same.1.2.1 regions.2.2.1,
        regions.1]
    | comment => simp only [Field.region, reduceCtorEq] at regions
    | _ => simp only [Field.recast, List.cons.injEq, reduceCtorEq, false_and] at same
  | .named name value span, second, same, regions => by
    cases second with
    | named =>
      simp only [Field.recast, List.cons.injEq, Field.named.injEq] at same
      simp only [Field.region, Region.part.injEq, List.cons.injEq] at regions
      rw [name.eq_of_region _ same.1.1 regions.2.1, value.eq_of_region _ same.1.2.1 regions.2.2.1,
        regions.1]
    | comment => simp only [Field.region, reduceCtorEq] at regions
    | _ => simp only [Field.recast, List.cons.injEq, reduceCtorEq, false_and] at same
  | .positional value, second, same, regions => by
    cases second with
    | positional =>
      simp only [Field.recast, List.cons.injEq, Field.positional.injEq] at same
      simp only [Field.region, Region.part.injEq, List.cons.injEq] at regions
      rw [value.eq_of_region _ same.1 regions.2.1]
    | comment => simp only [Field.region, reduceCtorEq] at regions
    | _ => simp only [Field.recast, List.cons.injEq, reduceCtorEq, false_and] at same
  | .comment remark, second, same, regions => by
    cases second with
    | comment other => rw [Region.comment.inj regions]
    | _ => simp only [Field.region, reduceCtorEq] at regions
termination_by structural first => first

theorem Field.eq_of_regions : ∀ first second : List Field,
    Field.recastAll .bare first = Field.recastAll .bare second →
      Field.regions first = Field.regions second → first = second
  | [], second, _, regions => by
    cases second with
    | nil => rfl
    | cons => cases regions
  | field :: rest, second, same, regions => by
    cases second with
    | nil => cases regions
    | cons other more =>
      obtain ⟨firstRegion, restRegions⟩ := List.cons.inj regions
      simp only [Field.recastAll] at same
      obtain ⟨firstSame, restSame⟩ := List.append_inj same
        (by rw [Field.length_recast_bare, Field.length_recast_bare, firstRegion])
      rw [field.eq_of_region other firstSame firstRegion,
        Field.eq_of_regions rest more restSame restRegions]
termination_by structural first => first

/-- A clause is determined by its regions and by what it says apart from them. -/
theorem Clause.eq_of_region : ∀ first second : Clause,
    first.recast .bare = second.recast .bare → first.region = second.region → first = second
  | .guarded word condition body span, second, same, regions => by
    cases second with
    | guarded =>
      simp only [Clause.recast, Clause.guarded.injEq] at same
      simp only [Clause.region, Region.block.injEq, List.cons.injEq] at regions
      rw [same.1, condition.eq_of_region _ same.2.1 regions.2.1.1,
        Statement.eq_of_regions body _ same.2.2.1 regions.2.2.1, regions.1]
    | otherwise => simp only [Clause.recast, reduceCtorEq] at same
  | .otherwise body span, second, same, regions => by
    cases second with
    | guarded => simp only [Clause.recast, reduceCtorEq] at same
    | otherwise =>
      simp only [Clause.recast, Clause.otherwise.injEq] at same
      simp only [Clause.region, Region.block.injEq] at regions
      rw [Statement.eq_of_regions body _ same.1 regions.2.2.1, regions.1]
termination_by structural first => first

theorem Clause.eq_of_regions : ∀ first second : List Clause,
    Clause.recastAll .bare first = Clause.recastAll .bare second →
      Clause.regions first = Clause.regions second → first = second
  | [], second, same, _ => by
    cases second with
    | nil => rfl
    | cons => cases same
  | clause :: rest, second, same, regions => by
    cases second with
    | nil => cases same
    | cons =>
      simp only [Clause.recastAll, List.cons.injEq] at same
      simp only [Clause.regions, List.cons.injEq] at regions
      rw [clause.eq_of_region _ same.1 regions.1, Clause.eq_of_regions rest _ same.2 regions.2]
termination_by structural first => first

/-- A statement is determined by its regions and by what it says apart from them. -/
theorem Statement.eq_of_region : ∀ first second : Statement,
    first.recast .bare = second.recast .bare → first.region = second.region → first = second
  | .assignment targets values span, second, same, regions => by
    cases second with
    | assignment =>
      simp only [Statement.recast, List.cons.injEq, Statement.assignment.injEq] at same
      simp only [Statement.region, Region.part.injEq] at regions
      obtain ⟨targetRegions, valueRegions⟩ :=
        Expression.append_regions_inj same.1.1 regions.2
      rw [Expression.eq_of_regions targets _ same.1.1 targetRegions,
        Expression.eq_of_regions values _ same.1.2.1 valueRegions, regions.1]
    | comment => simp only [Statement.region, reduceCtorEq] at regions
    | _ => simp only [Statement.recast, List.cons.injEq, reduceCtorEq, false_and] at same
  | .breakLoop span, second, same, regions => by
    cases second with
    | breakLoop => rw [(Region.part.inj regions).1]
    | comment => simp only [Statement.region, reduceCtorEq] at regions
    | _ => simp only [Statement.recast, List.cons.injEq, reduceCtorEq, false_and] at same
  | .call expression span, second, same, regions => by
    cases second with
    | call =>
      simp only [Statement.recast, List.cons.injEq, Statement.call.injEq] at same
      simp only [Statement.region, Region.part.injEq, List.cons.injEq] at regions
      rw [expression.eq_of_region _ same.1.1 regions.2.1, regions.1]
    | comment => simp only [Statement.region, reduceCtorEq] at regions
    | _ => simp only [Statement.recast, List.cons.injEq, reduceCtorEq, false_and] at same
  | .comment remark, second, same, regions => by
    cases second with
    | comment other => rw [Region.comment.inj regions]
    | _ => simp only [Statement.region, reduceCtorEq] at regions
  | .doBlock body span, second, same, regions => by
    cases second with
    | doBlock =>
      simp only [Statement.recast, List.cons.injEq, Statement.doBlock.injEq] at same
      simp only [Statement.region, Region.block.injEq] at regions
      rw [Statement.eq_of_regions body _ same.1.1 regions.2.2.1, regions.1]
    | comment => simp only [Statement.region, reduceCtorEq] at regions
    | _ => simp only [Statement.recast, List.cons.injEq, reduceCtorEq, false_and] at same
  | .genericFor declared iterators body span, second, same, regions => by
    cases second with
    | genericFor =>
      simp only [Statement.recast, List.cons.injEq, Statement.genericFor.injEq] at same
      simp only [Statement.region, Region.block.injEq] at regions
      obtain ⟨nameRegions, iteratorRegions⟩ := append_inj_of_map_eq same.1.1 regions.2.1
      rw [eq_of_map_eq Name.eq_of_region same.1.1 nameRegions,
        Expression.eq_of_regions iterators _ same.1.2.1 iteratorRegions,
        Statement.eq_of_regions body _ same.1.2.2.1 regions.2.2.1, regions.1]
    | comment => simp only [Statement.region, reduceCtorEq] at regions
    | _ => simp only [Statement.recast, List.cons.injEq, reduceCtorEq, false_and] at same
  | .numericFor counter start last step body span, second, same, regions => by
    cases second with
    | numericFor =>
      simp only [Statement.recast, List.cons.injEq, Statement.numericFor.injEq] at same
      simp only [Statement.region, Region.block.injEq, List.cons.injEq] at regions
      rw [counter.eq_of_region _ same.1.1 regions.2.1.1,
        start.eq_of_region _ same.1.2.1 regions.2.1.2.1,
        last.eq_of_region _ same.1.2.2.1 regions.2.1.2.2.1,
        Expression.eq_of_regionsOfOptional step _ same.1.2.2.2.1 regions.2.1.2.2.2,
        Statement.eq_of_regions body _ same.1.2.2.2.2.1 regions.2.2.1, regions.1]
    | comment => simp only [Statement.region, reduceCtorEq] at regions
    | _ => simp only [Statement.recast, List.cons.injEq, reduceCtorEq, false_and] at same
  | .function head parameters body span, second, same, regions => by
    cases second with
    | function =>
      simp only [Statement.recast, List.cons.injEq, Statement.function.injEq] at same
      simp only [Statement.region, Region.block.injEq] at regions
      obtain ⟨sameHead, behind⟩ := FunctionHead.eq_of_regions same.1.1 regions.2.1
      rw [sameHead, eq_of_map_eq Parameter.eq_of_region same.1.2.1 behind,
        Statement.eq_of_regions body _ same.1.2.2.1 regions.2.2.1, regions.1]
    | comment => simp only [Statement.region, reduceCtorEq] at regions
    | _ => simp only [Statement.recast, List.cons.injEq, reduceCtorEq, false_and] at same
  | .goto target span, second, same, regions => by
    cases second with
    | goto =>
      simp only [Statement.recast, List.cons.injEq, Statement.goto.injEq] at same
      simp only [Statement.region, Region.part.injEq, List.cons.injEq] at regions
      rw [target.eq_of_region _ same.1.1 regions.2.1, regions.1]
    | comment => simp only [Statement.region, reduceCtorEq] at regions
    | _ => simp only [Statement.recast, List.cons.injEq, reduceCtorEq, false_and] at same
  | .ifElse clauses span, second, same, regions => by
    cases second with
    | ifElse =>
      simp only [Statement.recast, List.cons.injEq, Statement.ifElse.injEq] at same
      simp only [Statement.region, Region.part.injEq] at regions
      rw [Clause.eq_of_regions clauses _ same.1.1 regions.2, regions.1]
    | comment => simp only [Statement.region, reduceCtorEq] at regions
    | _ => simp only [Statement.recast, List.cons.injEq, reduceCtorEq, false_and] at same
  | .label name span, second, same, regions => by
    cases second with
    | label =>
      simp only [Statement.recast, List.cons.injEq, Statement.label.injEq] at same
      simp only [Statement.region, Region.part.injEq, List.cons.injEq] at regions
      rw [name.eq_of_region _ same.1.1 regions.2.1, regions.1]
    | comment => simp only [Statement.region, reduceCtorEq] at regions
    | _ => simp only [Statement.recast, List.cons.injEq, reduceCtorEq, false_and] at same
  | .localVariables declared values span, second, same, regions => by
    cases second with
    | localVariables =>
      simp only [Statement.recast, List.cons.injEq, Statement.localVariables.injEq] at same
      simp only [Statement.region, Region.part.injEq] at regions
      obtain ⟨nameRegions, valueRegions⟩ := append_inj_of_map_eq same.1.1 regions.2
      rw [eq_of_map_eq Name.eq_of_region same.1.1 nameRegions,
        Expression.eq_of_regions values _ same.1.2.1 valueRegions, regions.1]
    | comment => simp only [Statement.region, reduceCtorEq] at regions
    | _ => simp only [Statement.recast, List.cons.injEq, reduceCtorEq, false_and] at same
  | .repeatUntil body condition span, second, same, regions => by
    cases second with
    | repeatUntil =>
      simp only [Statement.recast, List.cons.injEq, Statement.repeatUntil.injEq] at same
      simp only [Statement.region, Region.block.injEq, List.cons.injEq] at regions
      rw [Statement.eq_of_regions body _ same.1.1 regions.2.2.1,
        condition.eq_of_region _ same.1.2.1 regions.2.2.2.1, regions.1]
    | comment => simp only [Statement.region, reduceCtorEq] at regions
    | _ => simp only [Statement.recast, List.cons.injEq, reduceCtorEq, false_and] at same
  | .returnValues values span, second, same, regions => by
    cases second with
    | returnValues =>
      simp only [Statement.recast, List.cons.injEq, Statement.returnValues.injEq] at same
      simp only [Statement.region, Region.part.injEq] at regions
      rw [Expression.eq_of_regions values _ same.1.1 regions.2, regions.1]
    | comment => simp only [Statement.region, reduceCtorEq] at regions
    | _ => simp only [Statement.recast, List.cons.injEq, reduceCtorEq, false_and] at same
  | .whileLoop condition body span, second, same, regions => by
    cases second with
    | whileLoop =>
      simp only [Statement.recast, List.cons.injEq, Statement.whileLoop.injEq] at same
      simp only [Statement.region, Region.block.injEq, List.cons.injEq] at regions
      rw [condition.eq_of_region _ same.1.1 regions.2.1.1,
        Statement.eq_of_regions body _ same.1.2.1 regions.2.2.1, regions.1]
    | comment => simp only [Statement.region, reduceCtorEq] at regions
    | _ => simp only [Statement.recast, List.cons.injEq, reduceCtorEq, false_and] at same
termination_by structural first => first

theorem Statement.eq_of_regions : ∀ first second : List Statement,
    Statement.recastAll .bare first = Statement.recastAll .bare second →
      Statement.regions first = Statement.regions second → first = second
  | [], second, _, regions => by
    cases second with
    | nil => rfl
    | cons => cases regions
  | statement :: rest, second, same, regions => by
    cases second with
    | nil => cases regions
    | cons other more =>
      obtain ⟨firstRegion, restRegions⟩ := List.cons.inj regions
      simp only [Statement.recastAll] at same
      obtain ⟨firstSame, restSame⟩ := List.append_inj same
        (by rw [Statement.length_recast_bare, Statement.length_recast_bare, firstRegion])
      rw [statement.eq_of_region other firstSame firstRegion,
        Statement.eq_of_regions rest more restSame restRegions]
termination_by structural first => first

end

/-- A chunk is determined by its regions and by what it says apart from them. -/
theorem Chunk.eq_of_region {first second : Chunk}
    (same : Statement.recastAll .bare first.body = Statement.recastAll .bare second.body)
    (regions : first.region = second.region) : first = second := by
  obtain ⟨body, span⟩ := first
  obtain ⟨otherBody, otherSpan⟩ := second
  obtain ⟨rfl, -, bodyRegions, -⟩ := Region.block.inj regions
  rw [Statement.eq_of_regions body otherBody same bodyRegions]

end LuaStyle
