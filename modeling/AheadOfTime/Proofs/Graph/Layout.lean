import AheadOfTime.Graph.Decoding
import AheadOfTime.Proofs.Decoding.Kinds

/-!
# The layout of graphs

The steps and the contributions of a graph are the same however they are laid out, and so is the
graph.
-/

namespace AheadOfTime.Decoder

open StepDraft in
/-- The fields of the steps of each kind, in the order of their declaration. -/
def stepFields : StepKind → List (Field StepDraft)
  | .literal => [beanField, literalField]
  | .creation => [beanField, typeField, argumentsField, parameterTypesField, visibilityField]
  | .property =>
      [beanField, nameField, valueField, injectionField, parameterTypeField, visibilityField]
  | .callback => [beanField, methodField, visibilityField]
  | .supplier => [beanField, typeField]

def stepRequired : StepKind → List String
  | .literal => ["bean", "value"]
  | .creation => ["bean", "type"]
  | .property => ["bean", "name", "value"]
  | .callback => ["bean", "method"]
  | .supplier => ["bean", "type"]

/-- The fields of a step that may be left out, and what is the same as leaving them out. -/
def stepOptional : StepKind → List (String × Document)
  | .literal => []
  | .creation =>
      [("args", .sequence []), ("parameter-types", .null), ("visibility", .text "public")]
  | .property =>
      [("injection", .text "setter"), ("parameter-type", .null), ("visibility", .text "public")]
  | .callback => [("visibility", .text "public")]
  | .supplier => []

theorem fields_stepShape (kind : StepKind) : (stepShape kind).fields = stepFields kind := by
  cases kind <;> rfl

theorem names_stepShape (kind : StepKind) :
    (stepShape kind).names = (stepFields kind).map Field.name :=
  congrArg (List.map Field.name) (fields_stepShape kind)

theorem regular_stepShape (kind : StepKind) : (stepShape kind).Regular where
  distinct := by
    rw [names_stepShape]
    cases kind <;> decide
  unkinded := by
    rw [names_stepShape]
    cases kind <;> decide
  commuting := by
    rw [fields_stepShape]
    cases kind
    all_goals
      simp only [stepFields, List.pairwise_cons, List.forall_mem_cons, List.not_mem_nil,
        false_implies, implies_true, List.Pairwise.nil, and_true]
      repeat' apply And.intro
    all_goals
      exact Field.commutes_of fun _ _ _ => rfl

theorem requires_bean (kind : StepKind) : (stepShape kind).Requires "bean" := by
  refine Shape.requires_of 0 (by cases kind <;> rfl) (fun draft => draft.bean = none)
    (by cases kind <;> rfl) ?_ ?_
  · rw [fields_stepShape]
    cases kind
    all_goals
      simp only [stepFields, List.eraseIdx_zero, List.tail_cons, List.forall_mem_cons,
        List.not_mem_nil, false_implies, implies_true, and_true]
      repeat' apply And.intro
    all_goals
      exact Field.keeps_of fun _ _ lacks => lacks
  · rintro ⟨bean⟩ ⟨⟩
    cases kind <;> rfl

/-- Whether a draft lacks what a step of its kind needs beside the bean. -/
def StepDraft.LacksSecond (draft : StepDraft) : StepKind → Prop
  | .literal => draft.literal = none
  | .creation => draft.type = none
  | .property => draft.name = none
  | .callback => draft.method = none
  | .supplier => draft.type = none

theorem requires_second (kind : StepKind) :
    ∀ name ∈ (stepShape kind).names[1]?, (stepShape kind).Requires name := by
  intro name isSecond
  refine Shape.requires_of 1 isSecond (fun draft => draft.LacksSecond kind)
    (by cases kind <;> rfl) ?_ ?_
  · rw [fields_stepShape]
    cases kind
    all_goals
      simp only [stepFields, List.eraseIdx_cons_succ, List.eraseIdx_cons_zero,
        List.forall_mem_cons, List.not_mem_nil, false_implies, implies_true, and_true]
      repeat' apply And.intro
    all_goals
      exact Field.keeps_of fun _ _ lacks => lacks
  · rintro ⟨bean⟩ lacks
    cases kind <;> cases lacks <;> cases bean <;> rfl

theorem requires_value : (stepShape .property).Requires "value" := by
  refine Shape.requires_of 2 rfl (fun draft => draft.value = none) rfl ?_ ?_
  · rw [fields_stepShape]
    simp only [stepFields, List.eraseIdx_cons_succ, List.eraseIdx_cons_zero,
      List.forall_mem_cons, List.not_mem_nil, false_implies, implies_true, and_true]
    repeat' apply And.intro
    all_goals
      exact Field.keeps_of fun _ _ lacks => lacks
  · rintro ⟨bean, _, _, _, _, name⟩ ⟨⟩
    cases bean <;> cases name <;> rfl

theorem readsAsDefault_stepShape {kind : StepKind} (field : Field StepDraft) {document : Document}
    (isField : field ∈ stepFields kind) (unchanged : field.put document {} = .ok {}) :
    (stepShape kind).ReadsAsDefault field.name document := by
  refine ⟨field, ?_, rfl, ?_⟩
  · rwa [fields_stepShape]
  · cases kind <;> exact unchanged

theorem needs_stepShape (kind : StepKind) :
    (stepShape kind).Needs (stepRequired kind) (stepOptional kind) where
  names := by
    cases kind <;> rfl
  requires := by
    have bean := requires_bean kind
    have second := requires_second kind
    cases kind with
    | property =>
        exact List.forall_mem_cons.2 ⟨bean, List.forall_mem_cons.2
          ⟨second _ rfl, List.forall_mem_singleton.2 requires_value⟩⟩
    | _ =>
        exact List.forall_mem_cons.2 ⟨bean, List.forall_mem_singleton.2 (second _ rfl)⟩
  reads := by
    have visibility {kind : StepKind} (isField : StepDraft.visibilityField ∈ stepFields kind) :
        (stepShape kind).ReadsAsDefault "visibility" (.text "public") :=
      readsAsDefault_stepShape StepDraft.visibilityField isField rfl
    cases kind with
    | creation =>
        have arguments : (stepShape .creation).ReadsAsDefault "args" (.sequence []) :=
          readsAsDefault_stepShape StepDraft.argumentsField (by simp [stepFields]) rfl
        have parameterTypes : (stepShape .creation).ReadsAsDefault "parameter-types" .null :=
          readsAsDefault_stepShape StepDraft.parameterTypesField (by simp [stepFields]) rfl
        exact List.forall_mem_cons.2 ⟨arguments, List.forall_mem_cons.2
          ⟨parameterTypes, List.forall_mem_singleton.2 (visibility (by simp [stepFields]))⟩⟩
    | property =>
        have injection : (stepShape .property).ReadsAsDefault "injection" (.text "setter") :=
          readsAsDefault_stepShape StepDraft.injectionField (by simp [stepFields]) rfl
        have parameterType : (stepShape .property).ReadsAsDefault "parameter-type" .null :=
          readsAsDefault_stepShape StepDraft.parameterTypeField (by simp [stepFields]) rfl
        exact List.forall_mem_cons.2 ⟨injection, List.forall_mem_cons.2
          ⟨parameterType, List.forall_mem_singleton.2 (visibility (by simp [stepFields]))⟩⟩
    | callback =>
        exact List.forall_mem_singleton.2 (visibility (by simp [stepFields]))
    | literal | supplier =>
        exact List.forall_mem_nil _

theorem step_ignoresLayout : step.IgnoresLayout stepWords stepShape stepRequired stepOptional :=
  tagged_ignoresLayout regular_stepShape (fun kind => by cases kind <;> rfl) needs_stepShape

/-! ## Contributions -/

open ContributionDraft in
/-- The fields of the contributions of each kind, in the order of their declaration. -/
def contributionFields : ContributionKind → List (Field ContributionDraft)
  | .reflection =>
      [typeField, accessField, memberField, parameterTypesField, modeField, reachableIfField]
  | .resource => [patternField, reachableIfField]
  | .proxy => [interfacesField, reachableIfField]
  | .serialization => [typeField, reachableIfField]

def contributionRequired : ContributionKind → List String
  | .reflection => ["type", "access"]
  | .resource => ["pattern"]
  | .proxy => ["interfaces"]
  | .serialization => ["type"]

/-- The fields of a contribution that may be left out, and what is the same as leaving them
out. -/
def contributionOptional : ContributionKind → List (String × Document)
  | .reflection =>
      [("member", .null), ("parameter-types", .sequence []), ("mode", .text "invoke"),
        ("reachable-if", .null)]
  | .resource | .proxy | .serialization => [("reachable-if", .null)]

theorem fields_contributionShape (kind : ContributionKind) :
    (contributionShape kind).fields = contributionFields kind := by
  cases kind <;> rfl

theorem names_contributionShape (kind : ContributionKind) :
    (contributionShape kind).names = (contributionFields kind).map Field.name :=
  congrArg (List.map Field.name) (fields_contributionShape kind)

theorem regular_contributionShape (kind : ContributionKind) :
    (contributionShape kind).Regular where
  distinct := by
    rw [names_contributionShape]
    cases kind <;> decide
  unkinded := by
    rw [names_contributionShape]
    cases kind <;> decide
  commuting := by
    rw [fields_contributionShape]
    cases kind
    all_goals
      simp only [contributionFields, List.pairwise_cons, List.forall_mem_cons, List.not_mem_nil,
        false_implies, implies_true, List.Pairwise.nil, and_true]
      repeat' apply And.intro
    all_goals
      exact Field.commutes_of fun _ _ _ => rfl

/-- Whether a draft lacks the first thing that a contribution of its kind needs. -/
def ContributionDraft.LacksFirst (draft : ContributionDraft) : ContributionKind → Prop
  | .reflection | .serialization => draft.type = none
  | .resource => draft.pattern = none
  | .proxy => draft.interfaces = none

theorem requires_first (kind : ContributionKind) :
    ∀ name ∈ (contributionShape kind).names[0]?, (contributionShape kind).Requires name := by
  intro name isFirst
  refine Shape.requires_of 0 isFirst (fun draft => draft.LacksFirst kind)
    (by cases kind <;> rfl) ?_ ?_
  · rw [fields_contributionShape]
    cases kind
    all_goals
      simp only [contributionFields, List.eraseIdx_zero, List.tail_cons, List.forall_mem_cons,
        List.not_mem_nil, false_implies, implies_true, and_true]
      repeat' apply And.intro
    all_goals
      exact Field.keeps_of fun _ _ lacks => lacks
  · rintro ⟨type⟩ lacks
    cases kind <;> cases lacks <;> rfl

theorem requires_access : (contributionShape .reflection).Requires "access" := by
  refine Shape.requires_of 1 rfl (fun draft => draft.access = none) rfl ?_ ?_
  · rw [fields_contributionShape]
    simp only [contributionFields, List.eraseIdx_cons_succ, List.eraseIdx_cons_zero,
      List.forall_mem_cons, List.not_mem_nil, false_implies, implies_true, and_true]
    repeat' apply And.intro
    all_goals
      exact Field.keeps_of fun _ _ lacks => lacks
  · rintro ⟨type⟩ ⟨⟩
    cases type <;> rfl

theorem readsAsDefault_contributionShape {kind : ContributionKind}
    (field : Field ContributionDraft) {document : Document}
    (isField : field ∈ contributionFields kind) (unchanged : field.put document {} = .ok {}) :
    (contributionShape kind).ReadsAsDefault field.name document := by
  refine ⟨field, ?_, rfl, ?_⟩
  · rwa [fields_contributionShape]
  · cases kind <;> exact unchanged

theorem needs_contributionShape (kind : ContributionKind) :
    (contributionShape kind).Needs (contributionRequired kind) (contributionOptional kind) where
  names := by
    cases kind <;> rfl
  requires := by
    have first := requires_first kind
    cases kind with
    | reflection =>
        exact List.forall_mem_cons.2 ⟨first _ rfl, List.forall_mem_singleton.2 requires_access⟩
    | _ =>
        exact List.forall_mem_singleton.2 (first _ rfl)
  reads := by
    have reachableIf : (contributionShape kind).ReadsAsDefault "reachable-if" .null :=
      readsAsDefault_contributionShape ContributionDraft.reachableIfField
        (by cases kind <;> simp [contributionFields]) rfl
    cases kind with
    | reflection =>
        have member : (contributionShape .reflection).ReadsAsDefault "member" .null :=
          readsAsDefault_contributionShape ContributionDraft.memberField
            (by simp [contributionFields]) rfl
        have parameterTypes :
            (contributionShape .reflection).ReadsAsDefault "parameter-types" (.sequence []) :=
          readsAsDefault_contributionShape ContributionDraft.parameterTypesField
            (by simp [contributionFields]) rfl
        have mode : (contributionShape .reflection).ReadsAsDefault "mode" (.text "invoke") :=
          readsAsDefault_contributionShape ContributionDraft.modeField
            (by simp [contributionFields]) rfl
        exact List.forall_mem_cons.2 ⟨member, List.forall_mem_cons.2 ⟨parameterTypes,
          List.forall_mem_cons.2 ⟨mode, List.forall_mem_singleton.2 reachableIf⟩⟩⟩
    | _ =>
        exact List.forall_mem_singleton.2 reachableIf

theorem contribution_ignoresLayout :
    contribution.IgnoresLayout contributionWords contributionShape contributionRequired
      contributionOptional :=
  tagged_ignoresLayout regular_contributionShape (fun kind => by cases kind <;> rfl)
    needs_contributionShape

theorem regular_graphShape : graphShape.Regular where
  distinct := by decide
  unkinded := by decide
  commuting := by
    rw [graphShape]
    simp only [List.pairwise_cons, List.forall_mem_cons, List.not_mem_nil, false_implies,
      implies_true, List.Pairwise.nil, and_true]
    repeat' apply And.intro
    all_goals
      exact Field.commutes_of fun _ _ _ => rfl

/-- Items that are decoded alike may be written for each other in a field that holds a list of
them. -/
theorem agree_graph_items {α : Type} {decoder : Decoder α} {name : String}
    {store : GraphDraft → List α → GraphDraft}
    (isField : Field.of name (list decoder) store ∈ graphShape.fields)
    {before after : List (String × Document)} {items others : List Document}
    (distinct : Distinct (before ++ (name, .sequence items) :: after))
    (alike : List.Forall₂ (fun item other => Agree (decoder item) (decoder other)) items others) :
    Agree (graphShape.decode (.mapping (before ++ (name, .sequence items) :: after)))
      (graphShape.decode (.mapping (before ++ (name, .sequence others) :: after))) := by
  refine Shape.agree_ofEntries_replace distinct ?_
  intro field found draft
  have isListed := Shape.field?_of_mem regular_graphShape isField
  obtain rfl := Option.some.inj (isListed.symm.trans found)
  rw [Agree, Field.toOption_put_of, Field.toOption_put_of, agree_list alike]

/-- The meaning of a graph does not depend on how its steps and contributions are laid out, nor on
the order of its own entries; but it has no entries beside its own. -/
theorem graph_ignoresLayout :
    step.IgnoresLayout stepWords stepShape stepRequired stepOptional ∧
    contribution.IgnoresLayout contributionWords contributionShape contributionRequired
      contributionOptional ∧
    (∀ entries others : List (String × Document), Distinct entries → entries.Perm others →
      Agree (graphShape.decode (.mapping entries)) (graphShape.decode (.mapping others))) ∧
    (∀ entries : List (String × Document), ∀ entry ∈ entries,
      entry.1 ∉ ["application", "steps", "hints"] →
        (graphShape.decode (.mapping entries)).toOption = none) ∧
    (∀ (before after : List (String × Document)) (items others : List Document),
      Distinct (before ++ ("steps", .sequence items) :: after) →
      List.Forall₂ (fun item other => Agree (step item) (step other)) items others →
      Agree (graphShape.decode (.mapping (before ++ ("steps", .sequence items) :: after)))
        (graphShape.decode (.mapping (before ++ ("steps", .sequence others) :: after)))) ∧
    (∀ (before after : List (String × Document)) (items others : List Document),
      Distinct (before ++ ("hints", .sequence items) :: after) →
      List.Forall₂ (fun item other => Agree (contribution item) (contribution other))
        items others →
      Agree (graphShape.decode (.mapping (before ++ ("hints", .sequence items) :: after)))
        (graphShape.decode (.mapping (before ++ ("hints", .sequence others) :: after)))) := by
  refine ⟨step_ignoresLayout, contribution_ignoresLayout, ?permuted, ?unknown, ?steps, ?hints⟩
  case permuted =>
    intro entries others distinct permuted
    exact Shape.agree_ofEntries_perm regular_graphShape distinct permuted
  case unknown =>
    intro entries entry member unknown
    have unnamed : entry.1 ∉ graphShape.names := unknown
    have refused : (graphShape.putEntries [] graphShape.blank entries).toOption = none :=
      Shape.putEntries_of_not_mem rfl member unnamed [] graphShape.blank
    have whole : graphShape.decode (.mapping entries) =
        graphShape.putEntries [] graphShape.blank entries >>=
          fun draft => (graphShape.finish draft).mapError .missingField := rfl
    rw [whole, toOption_bind, refused]
    rfl
  case steps =>
    intro before after items others distinct alike
    exact agree_graph_items (List.mem_cons_of_mem _ List.mem_cons_self) distinct alike
  case hints =>
    intro before after items others distinct alike
    exact agree_graph_items
      (List.mem_cons_of_mem _ (List.mem_cons_of_mem _ List.mem_cons_self)) distinct alike

/-- A property in the order of its declaration, as items, and out of order with an entry beside
its own; and a graph with an entry beside its own. -/
theorem graph_ignoresLayout_property :
    let value : Document := .mapping [("ref", .text "cache")]
    let inOrder : List (String × Document) :=
      [("kind", .text "property"), ("bean", .text "app"), ("name", .text "size"),
        ("value", value)]
    let outOfOrder : List (String × Document) :=
      [("note", .null), ("value", value), ("name", .text "size"), ("bean", .text "app"),
        ("kind", .text "property")]
    let property : Step :=
      .property ⟨"app", "size", .reference "cache", .setter, none, .exposed⟩
    step (.mapping inOrder) = .ok property ∧
    (step (.sequence [.text "property", .text "app", .text "size", value])).toOption =
      some property ∧
    (step (.mapping outOfOrder)).toOption = some property ∧
    (graphShape.decode (.mapping [("application", .text "App"), ("step", .sequence [])])).toOption =
      none := by
  intro value inOrder outOfOrder property
  obtain ⟨steps, -, -, unknown, -, -⟩ := graph_ignoresLayout
  have isProperty : step (.mapping inOrder) = .ok property := rfl
  have named : Names stepWords inOrder .property := ⟨.text "property", List.mem_cons_self, rfl⟩
  refine ⟨isProperty, ?items, ?entries, ?graph⟩
  case items =>
    have isWord : kindWord stepWords (.text "property") = .ok .property := rfl
    have fits : [Document.text "app", .text "size", value].length ≤
        (stepShape .property).names.length := by
      decide
    exact (steps.listed isWord fits).trans (congrArg Except.toOption isProperty)
  case entries =>
    have permuted : outOfOrder.Perm ([("note", .null)] ++ inOrder) :=
      (List.reverse_perm inOrder).cons _
    have distinct : (outOfOrder.map Prod.fst).Nodup := by
      decide
    have surplus := steps.surplus (Distinct.perm distinct permuted) named ?_
    · exact (steps.permuted distinct permuted).trans
        (surplus.trans (congrArg Except.toOption isProperty))
    · rw [names_stepShape]
      decide
  case graph =>
    exact unknown _ ("step", .sequence []) (List.mem_cons_of_mem _ List.mem_cons_self) (by decide)

end AheadOfTime.Decoder
