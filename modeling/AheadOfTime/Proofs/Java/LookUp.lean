import AheadOfTime.Proofs.Java.Meaning
import Mathlib.Data.List.Sort
import Mathlib.Data.String.Basic

/-!
# What simple names lead to

In a file of a package the imports and the owners of simple names fit together, whatever
types claim their simple names and in whatever order: an imported type owns its simple name,
no import is ever withdrawn, and a type that is written by its simple name is found under it.
-/

namespace AheadOfTime.Java

/-- The type that is found under a simple name: an imported type, or else a type in the
package of the file, or else one of `java.lang`. -/
def Environment.lookUp (environment : Environment) (simple : Identifier) : TypeName :=
  match environment.imported.find? fun type => type.simple = simple with
  | some type => type
  | none =>
      if ⟨environment.package, simple⟩ ∈ environment.existing then
        ⟨environment.package, simple⟩
      else
        .lang simple

namespace Imports

/-- The imported types, in the order of their declarations. -/
def imported (imports : Imports) : List TypeName :=
  imports.declarations.filterMap fun name => (TypeName.parse name).toOption

/-- The types that need an import when they take their simple names, types claiming theirs
in turn. -/
def gained (imports : Imports) : List TypeName → List TypeName
  | [] => []
  | type :: later =>
      (if imports.wins type && imports.needsImport type then [type] else []) ++
        (imports.claim type).gained later

theorem not_needsImport_of_peer {imports : Imports} {type : TypeName}
    (ofUnit : type.package = imports.unit.package) : imports.needsImport type = false := by
  simp [needsImport, ofUnit]

theorem not_needsImport_of_lang {imports : Imports} {type : TypeName}
    (ofLang : type.package = TypeName.langPackage) : imports.needsImport type = false := by
  rw [needsImport, (isImplicit_iff (not_isPrimitive_of_lang ofLang)).2 ofLang]
  rfl

theorem filter_handOver {owners : List TypeName} {type owner : TypeName} {needed : TypeName → Bool}
    (typeUnneeded : needed type = false) (ownerUnneeded : needed owner = false) :
    (owners.map fun known => if known = owner then type else known).filter needed =
      owners.filter needed := by
  induction owners with
  | nil =>
      rfl
  | cons known owners inductionHypothesis =>
      rw [List.map_cons, List.filter_cons, List.filter_cons, inductionHypothesis]
      by_cases handed : known = owner
      · rw [if_pos handed, handed, typeUnneeded, ownerUnneeded]
        rfl
      · rw [if_neg handed]

/-- A claim adds the claimant to the imported owners or changes none of them: a simple name
is only taken over from a type that is not imported. -/
theorem filter_owners_claim (imports : Imports) (type : TypeName) :
    (imports.claim type).owners.filter imports.needsImport =
      imports.owners.filter imports.needsImport ++
        if imports.wins type && imports.needsImport type then [type] else [] := by
  unfold claim wins
  by_cases primitive : type.isPrimitive = true
  · simp [primitive]
  · simp only [primitive, Bool.false_eq_true, if_false, Bool.not_false, Bool.true_and]
    cases found : imports.ownerOf? type.simple with
    | none =>
        rw [List.filter_append, List.filter_singleton]
        cases imports.needsImport type <;> rfl
    | some owner =>
        by_cases hidden : imports.hides type owner = true
        · obtain ⟨ofUnit, ofLang, -⟩ := (hides_eq_true_iff _ _ _).1 hidden
          have typeUnneeded := not_needsImport_of_peer ofUnit
          have ownerUnneeded : imports.needsImport owner = false := not_needsImport_of_lang ofLang
          simp only [hidden, if_true, typeUnneeded, Bool.and_false, Bool.false_eq_true, if_false,
            List.append_nil]
          exact filter_handOver typeUnneeded ownerUnneeded
        · simp [hidden]

theorem needsImport_claim (imports : Imports) (type : TypeName) :
    (imports.claim type).needsImport = imports.needsImport := by
  funext owner
  rw [needsImport, needsImport, unit_claim]

/-- What is imported after claims is what was imported before them and what was gained. -/
theorem filter_owners_claimAll (imports : Imports) (types : List TypeName) :
    (imports.claimAll types).owners.filter (imports.claimAll types).needsImport =
      imports.owners.filter imports.needsImport ++ imports.gained types := by
  induction types generalizing imports with
  | nil =>
      exact (List.append_nil _).symm
  | cons type types inductionHypothesis =>
      have others := inductionHypothesis (imports.claim type)
      rw [needsImport_claim, filter_owners_claim, List.append_assoc] at others
      exact others

/-- A simple name that a type outside of `java.lang` owns keeps its owner. -/
theorem ownerOf?_claim_of_not_lang {imports : Imports} {simple : Identifier} {owner : TypeName}
    (owned : imports.ownerOf? simple = some owner) (notLang : owner.package ≠ TypeName.langPackage)
    (type : TypeName) : (imports.claim type).ownerOf? simple = some owner := by
  rw [ownerOf?_claim]
  by_cases taken : simple = type.simple ∧ imports.wins type = true
  · obtain ⟨rfl, wins⟩ := taken
    obtain ⟨-, ofLang, -⟩ := (hides_eq_true_iff _ _ _).1 (hides_of_wins owned wins)
    exact absurd ofLang notLang
  · rw [if_neg taken]
    exact owned

theorem ownerOf?_claimAll_of_not_lang {imports : Imports} {simple : Identifier} {owner : TypeName}
    (owned : imports.ownerOf? simple = some owner) (notLang : owner.package ≠ TypeName.langPackage)
    (types : List TypeName) : (imports.claimAll types).ownerOf? simple = some owner := by
  induction types generalizing imports with
  | nil =>
      exact owned
  | cons type types inductionHypothesis =>
      exact inductionHypothesis (ownerOf?_claim_of_not_lang owned notLang type)

/-- The type of the file keeps its simple name. -/
theorem ownerOf?_unit_claimAll {imports : Imports}
    (owned : imports.ownerOf? imports.unit.simple = some imports.unit) (types : List TypeName) :
    (imports.claimAll types).ownerOf? imports.unit.simple = some imports.unit := by
  induction types generalizing imports with
  | nil =>
      exact owned
  | cons type types inductionHypothesis =>
      rw [← unit_claim imports type]
      refine inductionHypothesis ?_
      rw [unit_claim, ownerOf?_claim]
      by_cases taken : imports.unit.simple = type.simple ∧ imports.wins type = true
      · obtain ⟨sameSimple, wins⟩ := taken
        obtain ⟨ofUnit, -, different⟩ :=
          (hides_eq_true_iff _ _ _).1 (hides_of_wins (sameSimple ▸ owned) wins)
        refine absurd ?_ different
        rw [TypeName.mk.injEq]
        exact ⟨ofUnit.symm, sameSimple⟩
      · rw [if_neg taken]
        exact owned

section

variable {imports : Imports} {claimed : TypeName → Prop}

theorem imported_perm (imports : Imports) :
    imports.imported.Perm (imports.owners.filter imports.needsImport) := by
  have read : ((imports.owners.filter imports.needsImport).map TypeName.canonical).filterMap
      (fun name => (TypeName.parse name).toOption) =
        imports.owners.filter imports.needsImport := by
    rw [List.filterMap_map]
    refine (List.filterMap_congr fun type _ => ?_).trans List.filterMap_some
    rw [Function.comp_apply, TypeName.parse_canonical]
    rfl
  have sorted := List.mergeSort_perm
    ((imports.owners.filter imports.needsImport).map TypeName.canonical)
    fun left right => decide (left ≤ right)
  have same := sorted.filterMap fun name => (TypeName.parse name).toOption
  rwa [read] at same

theorem mem_imported {type : TypeName} :
    type ∈ imports.imported ↔ type ∈ imports.owners ∧ imports.needsImport type = true := by
  rw [(imported_perm imports).mem_iff, List.mem_filter]

theorem declarations_eq_map_imported (imports : Imports) :
    imports.declarations = imports.imported.map TypeName.canonical := by
  have readBack : ∀ name ∈ imports.declarations,
      ((TypeName.parse name).toOption.map TypeName.canonical) = some name := by
    intro name member
    rw [declarations, List.mem_mergeSort, List.mem_map] at member
    obtain ⟨type, -, rfl⟩ := member
    rw [TypeName.parse_canonical]
    rfl
  rw [imported, List.map_filterMap, List.filterMap_congr readBack]
  exact List.filterMap_some.symm

theorem Serves.imported_apart (serves : imports.Serves claimed) :
    imports.imported.Pairwise fun first second => first.simple ≠ second.simple := by
  have ownersApart : imports.owners.Pairwise fun first second => first.simple ≠ second.simple :=
    List.pairwise_map.1 serves.distinct
  exact (imported_perm imports).symm.pairwise (ownersApart.filter _) fun different => different.symm

theorem Serves.declarations_ascending (serves : imports.Serves claimed) :
    imports.declarations.Pairwise (· < ·) := by
  have sorted : imports.declarations.Pairwise (· ≤ ·) := List.pairwise_mergeSort' (· ≤ ·) _
  have apart : imports.declarations.Pairwise (· ≠ ·) := by
    rw [declarations_eq_map_imported, List.pairwise_map]
    refine serves.imported_apart.imp fun different sameName => ?_
    exact different (congrArg TypeName.simple (TypeName.canonical_injective sameName))
  exact (sorted.and apart).imp fun both => lt_of_le_of_ne both.1 both.2

end

/-! ## What is found -/

/-- What simple names are looked up in when the file of `unit` has the given imports and
the claimants exist. -/
def environment (imports : Imports) (claimants : List TypeName) : Environment where
  package := imports.unit.package
  imported := imports.imported
  existing := imports.unit :: claimants

section

variable {imports : Imports} {claimants : List TypeName} {type : TypeName}
  (serves : imports.Serves fun type => type ∈ claimants ∨ type = imports.unit)

include serves

theorem lookUp_environment (simple : Identifier) :
    (imports.environment claimants).lookUp simple =
      ((imports.ownerOf? simple).filter imports.needsImport).getD
        (if ⟨imports.unit.package, simple⟩ ∈ imports.unit :: claimants then
          ⟨imports.unit.package, simple⟩
        else
          .lang simple) := by
  have agrees : (imports.environment claimants).Agrees imports
      fun type => type ∈ claimants ∨ type = imports.unit := {
    package := rfl
    imported := fun _ => mem_imported
    existing := fun _ claims => List.mem_cons.2 claims.symm }
  rw [Environment.lookUp, Environment.find?_imported agrees serves]
  cases (imports.ownerOf? simple).filter imports.needsImport <;> rfl

/-- A type outside of `java.lang` is found under a simple name of its own. -/
theorem lookUp_of_owned (notPrimitive : type.isPrimitive = false)
    (notLang : type.package ≠ TypeName.langPackage)
    (owned : imports.ownerOf? type.simple = some type) :
    (imports.environment claimants).lookUp type.simple = type := by
  rw [lookUp_environment serves, owned]
  by_cases needed : imports.needsImport type = true
  · rw [Option.filter_some_pos needed, Option.getD_some]
  · have notImplicit : type.isImplicit = false := by
      rw [← Bool.not_eq_true, isImplicit_iff notPrimitive]
      exact notLang
    have ofUnit : type.package = imports.unit.package := by
      simpa [needsImport, notImplicit] using needed
    have member : type ∈ imports.unit :: claimants :=
      List.mem_cons.2 (serves.known type ((serves.mem_owners_iff type).2 owned)).symm
    rw [Option.filter_some_neg (Bool.eq_false_iff.2 needed), Option.getD_none, ← ofUnit,
      if_pos member]

/-- A type of `java.lang` that is written by its simple name is found under it: a claimant
of the file's package would have taken the name. -/
theorem lookUp_of_lang (unitPackaged : imports.unit.package ≠ [])
    (ofLang : type.package = TypeName.langPackage) (bare : imports.Bare type) :
    (imports.environment claimants).lookUp type.simple = type := by
  have notImported : (imports.ownerOf? type.simple).filter imports.needsImport = none := by
    rcases bare with owned | ⟨unowned, -⟩
    · rw [owned, Option.filter_some_neg (not_needsImport_of_lang ofLang)]
    · rw [unowned]
      rfl
  rw [lookUp_environment serves, notImported, Option.getD_none, ← eq_lang ofLang]
  by_cases same : ⟨imports.unit.package, type.simple⟩ = type
  · rw [same, ite_self]
  · refine if_neg fun member => ?_
    have primitive : TypeName.isPrimitive ⟨imports.unit.package, type.simple⟩ = true :=
      isPrimitive_of_claimed serves ofLang bare rfl rfl same (List.mem_cons.1 member).symm
    have unpackaged := package_eq_nil_of_isPrimitive primitive
    exact unitPackaged unpackaged

theorem lookUp_of_bare (unitPackaged : imports.unit.package ≠ [])
    (notPrimitive : type.isPrimitive = false) (bare : imports.Bare type) :
    (imports.environment claimants).lookUp type.simple = type := by
  by_cases ofLang : type.package = TypeName.langPackage
  · exact lookUp_of_lang serves unitPackaged ofLang bare
  · exact lookUp_of_owned serves notPrimitive ofLang (bare.resolve_right fun unowned =>
      ofLang unowned.2)

end

/-- What holds of the imports of a file in which types have claimed their simple names in
turn. -/
structure Coherent (imports : Imports) (claimants : List TypeName) : Prop where
  ascending : imports.declarations.Pairwise (· < ·)
  /-- What is declared is what any of the claims has gained. -/
  gained : ∀ name, name ∈ imports.declarations ↔
    ∃ type ∈ (start imports.unit).gained claimants, name = type.canonical
  declared : imports.declarations = imports.imported.map TypeName.canonical
  apart : imports.imported.Pairwise fun first second => first.simple ≠ second.simple
  foreign : ∀ type ∈ imports.imported, type.simple ≠ imports.unit.simple ∧
    type.package ≠ TypeName.langPackage ∧ type.package ≠ imports.unit.package
  owned : ∀ type ∈ imports.imported, imports.ownerOf? type.simple = some type
  kept : ∀ simple owner, imports.ownerOf? simple = some owner →
    owner.package ≠ TypeName.langPackage →
      ∀ later, (imports.claimAll later).ownerOf? simple = some owner
  unambiguous : ∀ first second : TypeName, first.package ≠ [] → second.package ≠ [] →
    imports.spelling first = imports.spelling second → first = second
  found : ∀ type : TypeName, type.package ≠ [] → imports.spelling type = type.simple.text →
    (imports.environment claimants).lookUp type.simple = type

theorem not_isPrimitive_of_packaged {type : TypeName} (packaged : type.package ≠ []) :
    type.isPrimitive = false :=
  Bool.eq_false_iff.2 fun primitive => packaged (package_eq_nil_of_isPrimitive primitive)

theorem Serves.unambiguous {imports : Imports} {claimants : List TypeName}
    (serves : imports.Serves fun type => type ∈ claimants ∨ type = imports.unit)
    (unitPackaged : imports.unit.package ≠ []) {first second : TypeName}
    (firstPackaged : first.package ≠ []) (secondPackaged : second.package ≠ [])
    (sameSpelling : imports.spelling first = imports.spelling second) : first = second := by
  have firstProper := not_isPrimitive_of_packaged firstPackaged
  have secondProper := not_isPrimitive_of_packaged secondPackaged
  rw [spelling_eq, spelling_eq] at sameSpelling
  have sameName := TypeName.canonical_injective sameSpelling
  by_cases firstBare : imports.Bare first
  · rw [written_of_bare firstProper firstBare] at sameName
    by_cases secondBare : imports.Bare second
    · rw [written_of_bare secondProper secondBare] at sameName
      have sameSimple : first.simple = second.simple := (TypeName.mk.inj sameName).2
      rw [← lookUp_of_bare serves unitPackaged firstProper firstBare, sameSimple]
      exact lookUp_of_bare serves unitPackaged secondProper secondBare
    · rw [written_of_not_bare secondProper secondBare] at sameName
      exact absurd (congrArg TypeName.package sameName).symm secondPackaged
  · rw [written_of_not_bare firstProper firstBare] at sameName
    by_cases secondBare : imports.Bare second
    · rw [written_of_bare secondProper secondBare] at sameName
      exact absurd (congrArg TypeName.package sameName) firstPackaged
    · rwa [written_of_not_bare secondProper secondBare] at sameName

theorem serves_start_claimAll (unit : TypeName) (types : List TypeName) :
    ((start unit).claimAll types).Serves fun type =>
      type ∈ types ∨ type = ((start unit).claimAll types).unit := by
  rw [unit_claimAll]
  exact (Serves.start unit).claimAll types

/-- In a file of a package imports and owners fit together after any claims: imports are
sorted and none is double, none has the simple name of the file's type and none is needless;
an imported type owns its simple name, no type outside of `java.lang` loses one, different
types are written differently, and what is written by a simple name is found under it. -/
theorem claimAll_coherent {unit : TypeName} (packaged : unit.package ≠ [])
    (types : List TypeName) : ((start unit).claimAll types).Coherent types := by
  have serves := serves_start_claimAll unit types
  have unitKept : ((start unit).claimAll types).unit = unit := unit_claimAll (start unit) types
  have unitPackaged : ((start unit).claimAll types).unit.package ≠ [] := by
    rwa [unitKept]
  have startOwned : (start unit).ownerOf? unit.simple = some unit := by
    simp [ownerOf?, start]
  have unitOwned : ((start unit).claimAll types).ownerOf? unit.simple = some unit :=
    ownerOf?_unit_claimAll startOwned types
  refine {
    ascending := serves.declarations_ascending
    gained := fun name => ?_
    declared := declarations_eq_map_imported _
    apart := serves.imported_apart
    foreign := fun type member => ?_
    owned := fun type member => (serves.mem_owners_iff type).1 (mem_imported.1 member).1
    kept := fun _ _ => ownerOf?_claimAll_of_not_lang
    unambiguous := fun _ _ => serves.unambiguous unitPackaged
    found := fun type typePackaged bareSpelling => ?_ }
  · have unitUnneeded : (start unit).owners.filter (start unit).needsImport = [] := by
      rw [start, List.filter_singleton, not_needsImport_of_peer rfl]
      rfl
    have imported := filter_owners_claimAll (start unit) types
    rw [unitUnneeded, List.nil_append] at imported
    rw [unitKept, declarations, imported, List.mem_mergeSort, List.mem_map]
    simp only [eq_comm]
  · obtain ⟨member, needed⟩ := mem_imported.1 member
    refine ⟨fun sameSimple => ?_, fun ofLang => ?_, fun ofUnit => ?_⟩
    · have owned := (serves.mem_owners_iff type).1 member
      rw [sameSimple, unitKept, unitOwned] at owned
      rw [← Option.some.inj owned, not_needsImport_of_peer (by rw [unitKept])] at needed
      cases needed
    · rw [not_needsImport_of_lang ofLang] at needed
      cases needed
    · rw [not_needsImport_of_peer ofUnit] at needed
      cases needed
  · have proper := not_isPrimitive_of_packaged typePackaged
    exact lookUp_of_bare serves unitPackaged proper
      (bare_of_spelling proper typePackaged bareSpelling)

/-- The type of a file, beside which there is another type `String`. -/
def exampleUnit : TypeName :=
  ⟨[{ text := "com" }, { text := "example" }], { text := "App" }⟩

/-- Types of which two pairs have the same simple name. -/
def exampleClaims : List TypeName :=
  [.lang TypeName.stringName, ⟨exampleUnit.package, TypeName.stringName⟩,
    ⟨[{ text := "java" }, { text := "util" }], { text := "List" }⟩,
    ⟨[{ text := "com" }, { text := "other" }], { text := "List" }⟩]

/-- The peer takes its simple name over, and the second list is written in full. -/
theorem exampleClaims_coherent :
    exampleClaims.map ((start exampleUnit).claimAll exampleClaims).spelling =
        ["java.lang.String", "String", "List", "com.other.List"] ∧
      ((start exampleUnit).claimAll exampleClaims).Coherent exampleClaims :=
  ⟨rfl, claimAll_coherent (List.cons_ne_nil _ _) exampleClaims⟩

end Imports

end AheadOfTime.Java
