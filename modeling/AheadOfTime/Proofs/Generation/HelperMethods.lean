import AheadOfTime.Proofs.Generation.Calls
import AheadOfTime.Proofs.Generation.Nameable

/-!
# The methods of the helper

The helper declares the methods that hidden steps call, and imports the types of reflection
that these methods work with.  Which methods are called is collected while steps run.
-/

namespace AheadOfTime

open Java

namespace Java

/-- The static method that a block declares: the last word of its header before the
parameters. -/
def Code.staticMethod? : Code → Option String
  | .block header _ =>
      (Text.dropStart? "static ".toList header.toList).map fun rest =>
        String.ofList ((Text.split ' ' (rest.takeWhile (· != '('))).getLastD [])
  | .line _ | .blank => none

def Code.members : Code → List Code
  | .block _ body => body
  | .line _ | .blank => []

def SourceUnit.staticMethods (unit : SourceUnit) : List String :=
  (unit.code.flatMap Code.members).filterMap Code.staticMethod?

def HelperUses.methods (uses : HelperUses) : List String :=
  (if uses.instantiate then ["instantiate"] else []) ++
    (if uses.invoke then ["invoke"] else []) ++
    if uses.setField then ["setField"] else []

theorem HelperUses.mem_methods_iff (uses : HelperUses) (method : String) :
    method ∈ uses.methods ↔
      uses.instantiate = true ∧ method = "instantiate" ∨
        uses.invoke = true ∧ method = "invoke" ∨ uses.setField = true ∧ method = "setField" := by
  obtain ⟨instantiate, invoke, setField⟩ := uses
  cases instantiate <;> cases invoke <;> cases setField <;> simp [methods]

namespace Helper

variable (helper : Helper)

theorem staticMethods_methodCode {name header : String}
    (declared : ∀ body, Code.staticMethod? (.block header body) = some name)
    (lines : List String) (message : String) :
    (helper.methodCode header lines message).filterMap Code.staticMethod? = [name] := by
  rw [methodCode, List.filterMap_cons_none rfl, List.filterMap_cons_some (declared _)]
  rfl

theorem staticMethods_instantiateCode :
    helper.instantiateCode.filterMap Code.staticMethod? = ["instantiate"] := by
  refine helper.staticMethods_methodCode (fun body => ?_) _ _
  simp only [Code.staticMethod?, String.append_assoc]
  rw [String.toList_append]
  rfl

theorem staticMethods_invokeCode :
    helper.invokeCode.filterMap Code.staticMethod? = ["invoke"] := by
  refine helper.staticMethods_methodCode (fun body => ?_) _ _
  simp only [Code.staticMethod?, String.append_assoc]
  rw [String.toList_append]
  rfl

theorem staticMethods_setFieldCode :
    helper.setFieldCode.filterMap Code.staticMethod? = ["setField"] := by
  refine helper.staticMethods_methodCode (fun body => ?_) _ _
  simp only [Code.staticMethod?, String.append_assoc]
  rw [String.toList_append]
  rfl

theorem staticMethods_source : helper.source.staticMethods = helper.uses.methods := by
  have onlyIf : ∀ (used : Bool) (code : List Code),
      (if used then code else []).filterMap Code.staticMethod? =
        if used then code.filterMap Code.staticMethod? else [] := by
    intro used code
    cases used <;> rfl
  have constructor : Code.staticMethod?
      (.block ("private " ++ helper.name.simple.text ++ "()") []) = none := by
    simp only [Code.staticMethod?, String.append_assoc]
    rw [String.toList_append]
    rfl
  have members : helper.source.code.flatMap Code.members = helper.declaration.members := by
    have package : (packageCode helper.name).flatMap Code.members = [] := by
      unfold packageCode
      split <;> rfl
    have imports : (importCode helper.uses).flatMap Code.members = [] := by
      unfold importCode
      cases helper.uses.instantiate <;> cases helper.uses.setField <;>
        cases helper.uses.invoke <;> rfl
    rw [source, List.flatMap_append, List.flatMap_append, List.flatMap_append, package, imports]
    exact List.append_nil _
  have blank : Code.staticMethod? .blank = none := rfl
  rw [SourceUnit.staticMethods, members]
  simp only [declaration, Code.members, List.filterMap_append, onlyIf,
    staticMethods_instantiateCode, staticMethods_invokeCode, staticMethods_setFieldCode,
    List.filterMap_cons_none constructor, List.filterMap_cons_none blank]
  exact List.append_nil _

def reflected? : String → Option TypeName
  | "instantiate" => some ⟨reflectPackage, { text := "Constructor" }⟩
  | "setField" => some ⟨reflectPackage, { text := "Field" }⟩
  | "invoke" => some ⟨reflectPackage, { text := "Method" }⟩
  | _ => none

theorem mem_imported_iff (type : TypeName) :
    type ∈ helper.source.imported ↔
      ∃ method ∈ helper.source.staticMethods, reflected? method = some type := by
  have line : ∀ (used : Bool) (simple : Identifier),
      (if used then [Code.line ("import java.lang.reflect." ++ simple.text ++ ";")]
        else []).filterMap Code.imported? = if used then [⟨reflectPackage, simple⟩] else [] := by
    intro used simple
    cases used with
    | true =>
        exact List.filterMap_cons_some (imported?_reflect simple)
    | false =>
        rfl
  have imported : helper.source.imported =
      (if helper.uses.instantiate then [⟨reflectPackage, { text := "Constructor" }⟩] else []) ++
        (if helper.uses.setField then [⟨reflectPackage, { text := "Field" }⟩] else []) ++
        (if helper.uses.invoke then [⟨reflectPackage, { text := "Method" }⟩] else []) := by
    rw [← line, ← line, ← line, ← List.filterMap_append, ← List.filterMap_append]
    exact helper.imported_source []
  rw [staticMethods_source, imported, HelperUses.methods]
  cases helper.uses.instantiate <;> cases helper.uses.setField <;>
    cases helper.uses.invoke <;> simp [reflected?, eq_comm, or_comm]

end Helper

end Java

/-- A hidden step marks the method that it calls, and no other. -/
theorem Step.mem_methods_mark {step : Step} (hidden : step.isHidden = true) (uses : HelperUses)
    (method : String) :
    method ∈ (step.mark uses).methods ↔
      method ∈ uses.methods ∨ step.helperMethod? = some method := by
  rw [HelperUses.mem_methods_iff, HelperUses.mem_methods_iff]
  cases step with
  | literal bean value =>
      cases hidden
  | creation made =>
      rw [isHidden, beq_iff_eq] at hidden
      simp only [helperMethod?, hidden, mark]
      grind
  | property set =>
      rw [isHidden, beq_iff_eq] at hidden
      cases injected : set.injection with
      | setter =>
          simp only [helperMethod?, hidden, injected, mark]
          grind
      | field =>
          simp only [helperMethod?, hidden, injected, mark]
          grind
  | callback bean called visibility =>
      rw [isHidden, beq_iff_eq] at hidden
      simp only [helperMethod?, hidden, mark]
      grind
  | supplier bean type =>
      cases hidden

namespace Draft

theorem mem_methods_after (draft : Draft) (step : Step) (method : String) :
    method ∈ (draft.after step).helperUses.methods ↔
      method ∈ draft.helperUses.methods ∨ step.helperMethod? = some method := by
  cases hidden : step.isHidden with
  | true =>
      have marked : (draft.after step).helperUses = step.mark draft.helperUses := by
        rw [helperUses, after, hidden]
        rfl
      rw [marked, Step.mem_methods_mark hidden]
  | false =>
      have kept : (draft.after step).helperUses = draft.helperUses := by
        rw [helperUses, after, hidden]
        rfl
      have calls : step.helperMethod? = none := by
        rw [← Option.not_isSome_iff_eq_none, step.isSome_helperMethod?, hidden]
        decide
      rw [kept, calls]
      simp

/-- The methods that are marked after steps are those that they call. -/
theorem mem_methods_afterAll (draft : Draft) (steps : List Step) (method : String) :
    method ∈ (draft.afterAll steps).helperUses.methods ↔
      method ∈ draft.helperUses.methods ∨
        ∃ step ∈ steps, step.helperMethod? = some method := by
  induction steps generalizing draft with
  | nil =>
      simp [afterAll]
  | cons step rest inductionHypothesis =>
      refine (inductionHypothesis (draft.after step)).trans ?_
      rw [mem_methods_after]
      simp only [List.mem_cons, exists_eq_or_imp, or_assoc]

end Draft

/-- The helper of a graph declares the methods that its steps call. -/
theorem Graph.mem_staticMethods_iff (graph : Graph) (context : Context) {helper : Helper}
    (found : (graph.generatedIn context).helper = some helper) (method : String) :
    method ∈ helper.source.staticMethods ↔
      ∃ step ∈ graph.steps, step.helperMethod? = some method := by
  obtain ⟨⟨name, uses⟩, isHelper, rfl⟩ := Option.map_eq_some_iff.1 found
  have sameUses : (graph.draftAfter context graph.steps).helperUses = uses := by
    rw [Draft.helperUses, isHelper]
  have called := (graph.startIn context).mem_methods_afterAll graph.steps method
  rw [Helper.staticMethods_source, ← sameUses]
  exact called.trans (or_iff_right List.not_mem_nil)

end AheadOfTime
