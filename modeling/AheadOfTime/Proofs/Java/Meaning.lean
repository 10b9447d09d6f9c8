import AheadOfTime.Proofs.Java.Claims
import AheadOfTime.Proofs.TypeName

/-!
# What a written type means

A name in a source file means what Java makes of it: a keyword is a primitive type, a
name in full is itself, and a simple name is that of an import, or else of a type in the
package of the file, or else of a type of `java.lang`.  An occurrence written from
claimed simple names is read as the type that was meant, save for three cases, which are
described here exactly.
-/

namespace AheadOfTime.Java

/-- What names in a source file are looked up in: its package, its imports, and the
types that there are. -/
structure Environment where
  package : List Identifier
  imported : List TypeName
  existing : List TypeName

namespace Environment

def meaning (environment : Environment) (name : TypeName) : TypeName :=
  if name.package ≠ [] ∨ name.isPrimitive = true then
    name
  else
    match environment.imported.find? fun type => type.simple = name.simple with
    | some type => type
    | none =>
        if ⟨environment.package, name.simple⟩ ∈ environment.existing then
          ⟨environment.package, name.simple⟩
        else
          .lang name.simple

def read? (environment : Environment) (text : String) : Option TypeName :=
  (TypeName.parse text).toOption.map environment.meaning

/-- The types beside the file. -/
def peers (environment : Environment) : List TypeName :=
  environment.existing.filter fun type => type.package = environment.package

end Environment

/-- The cases in which an occurrence of a type is not read as that type: its simple name
is a keyword; it has no package, so that it cannot be written in full, and its simple
name belongs to another type; or it is a type of `java.lang` that one of the file's peers
hides. -/
inductive TypeUse.Misread (imports : Imports) (peers : List TypeName) (use : TypeUse) : Prop where
  | keyword (bare : use.spelling = use.type.simple.text)
      (notPrimitive : use.type.isPrimitive = false)
      (isKeyword : (TypeName.unpackaged use.type.simple).isPrimitive = true)
  | unpackaged (noPackage : use.type.package = []) (notPrimitive : use.type.isPrimitive = false)
      (lost : imports.ownerOf? use.type.simple ≠ some use.type)
  | hidden (bare : use.spelling = use.type.simple.text)
      (ofLang : use.type.package = TypeName.langPackage) {peer : TypeName} (member : peer ∈ peers)
      (sameSimple : peer.simple = use.type.simple) (different : peer ≠ use.type)

/-- A type in a package, whose simple name is no keyword, is not misread unless it is one of
`java.lang` that a peer hides. -/
theorem TypeUse.not_misread {imports : Imports} {peers : List TypeName} {use : TypeUse}
    (packaged : use.type.package ≠ [])
    (notKeyword : (TypeName.unpackaged use.type.simple).isPrimitive = false)
    (unhidden : use.type.package = TypeName.langPackage →
      ∀ peer ∈ peers, peer.simple = use.type.simple → peer = use.type) :
    ¬use.Misread imports peers := by
  rintro (⟨-, -, isKeyword⟩ | ⟨noPackage, -, -⟩ | ⟨-, ofLang, member, sameSimple, different⟩)
  · exact absurd isKeyword (Bool.eq_false_iff.1 notKeyword)
  · exact packaged noPackage
  · exact different (unhidden ofLang _ member sameSimple)

theorem canonical_unpackaged (simple : Identifier) :
    (TypeName.unpackaged simple).canonical = simple.text :=
  String.ofList_toList

theorem eq_unpackaged {type : TypeName} (noPackage : type.package = []) :
    type = .unpackaged type.simple := by
  rw [TypeName.unpackaged, ← noPackage]

theorem package_eq_nil_of_isPrimitive {type : TypeName} (primitive : type.isPrimitive = true) :
    type.package = [] := by
  rw [TypeName.isPrimitive, Bool.and_eq_true, List.isEmpty_iff] at primitive
  exact primitive.1

theorem isImplicit_iff {type : TypeName} (notPrimitive : type.isPrimitive = false) :
    type.isImplicit = true ↔ type.package = TypeName.langPackage := by
  rw [TypeName.isImplicit, notPrimitive, Bool.false_or, beq_iff_eq]

theorem packaged_of_lang {type : TypeName} (ofLang : type.package = TypeName.langPackage) :
    type.package ≠ [] := by
  rw [ofLang]
  exact List.cons_ne_nil _ _

theorem eq_lang {type : TypeName} (ofLang : type.package = TypeName.langPackage) :
    type = .lang type.simple := by
  rw [TypeName.lang, ← ofLang]

theorem not_isPrimitive_of_lang {type : TypeName} (ofLang : type.package = TypeName.langPackage) :
    type.isPrimitive = false := by
  rw [eq_lang ofLang]
  rfl

namespace Imports

def written (imports : Imports) (type : TypeName) : TypeName :=
  if type.isPrimitive then
    type
  else
    match imports.ownerOf? type.simple with
    | some owner => if owner = type then .unpackaged type.simple else type
    | none => if type.isImplicit then .unpackaged type.simple else type

theorem spelling_eq (imports : Imports) (type : TypeName) :
    imports.spelling type = (imports.written type).canonical := by
  unfold spelling written
  by_cases primitive : type.isPrimitive = true
  · rw [if_pos primitive, if_pos primitive, ← canonical_unpackaged,
      ← eq_unpackaged (package_eq_nil_of_isPrimitive primitive)]
  · rw [if_neg primitive, if_neg primitive]
    cases imports.ownerOf? type.simple with
    | none =>
        by_cases implicit : type.isImplicit = true
        · simp only [implicit, if_true, canonical_unpackaged]
        · simp only [implicit, Bool.false_eq_true, if_false]
    | some owner =>
        by_cases owned : owner = type
        · simp only [owned, if_true, canonical_unpackaged]
        · simp only [owned, if_false]

theorem read?_spelling (imports : Imports) (environment : Environment) (type : TypeName) :
    environment.read? (imports.spelling type) =
      some (environment.meaning (imports.written type)) := by
  rw [Environment.read?, spelling_eq, TypeName.parse_canonical]
  rfl

/-- Whether a type is written by its simple name because the name is its own, or because
it is a type of `java.lang` and the name is nobody's. -/
def Bare (imports : Imports) (type : TypeName) : Prop :=
  imports.ownerOf? type.simple = some type ∨
    imports.ownerOf? type.simple = none ∧ type.package = TypeName.langPackage

theorem written_of_bare {imports : Imports} {type : TypeName}
    (notPrimitive : type.isPrimitive = false) (bare : imports.Bare type) :
    imports.written type = .unpackaged type.simple := by
  rw [written, notPrimitive]
  rcases bare with owned | ⟨unowned, ofLang⟩
  · simp [owned]
  · simp [unowned, (isImplicit_iff notPrimitive).2 ofLang]

theorem written_of_not_bare {imports : Imports} {type : TypeName}
    (notPrimitive : type.isPrimitive = false) (notBare : ¬imports.Bare type) :
    imports.written type = type := by
  rw [Bare, not_or, not_and] at notBare
  obtain ⟨notOwned, notLang⟩ := notBare
  rw [written, notPrimitive]
  cases found : imports.ownerOf? type.simple with
  | none =>
      have notImplicit : ¬type.isImplicit = true := by
        rw [isImplicit_iff notPrimitive]
        exact notLang found
      simp [notImplicit]
  | some owner =>
      have other : owner ≠ type := by
        rintro rfl
        exact notOwned found
      simp [other]

theorem spelling_of_bare {imports : Imports} {type : TypeName}
    (notPrimitive : type.isPrimitive = false) (bare : imports.Bare type) :
    imports.spelling type = type.simple.text := by
  rw [spelling_eq, written_of_bare notPrimitive bare, canonical_unpackaged]

theorem bare_of_spelling {imports : Imports} {type : TypeName}
    (notPrimitive : type.isPrimitive = false) (packaged : type.package ≠ [])
    (bareSpelling : imports.spelling type = type.simple.text) : imports.Bare type := by
  by_contra notBare
  rw [spelling_eq, written_of_not_bare notPrimitive notBare, ← canonical_unpackaged]
    at bareSpelling
  exact packaged (congrArg TypeName.package (TypeName.canonical_injective bareSpelling))

/-- Who owns a simple name that a type of the file's package cannot take has to be
imported. -/
theorem needsImport_of_not_hides {imports : Imports} {type owner : TypeName}
    (notPrimitive : owner.isPrimitive = false) (ofUnit : type.package = imports.unit.package)
    (sameSimple : owner.simple = type.simple) (different : owner ≠ type)
    (notHidden : imports.hides type owner = false) : imports.needsImport owner = true := by
  have otherPackage : owner.package ≠ imports.unit.package := by
    intro ownerPackage
    apply different
    rw [TypeName.mk.injEq]
    exact ⟨ownerPackage.trans ofUnit.symm, sameSimple⟩
  have notImplicit : owner.isImplicit = false := by
    rw [← Bool.not_eq_true, isImplicit_iff notPrimitive]
    intro ofLang
    have hidden := (hides_eq_true_iff imports type owner).2 ⟨ofUnit, ofLang, different⟩
    rw [hidden] at notHidden
    cases notHidden
  rw [needsImport, notImplicit]
  simpa using otherPackage

section

variable {imports : Imports} {peers : List TypeName} {type : TypeName}

theorem not_misread_of_isPrimitive (primitive : type.isPrimitive = true) :
    ¬(imports.use type).Misread imports peers := by
  rintro (⟨-, notPrimitive, -⟩ | ⟨-, notPrimitive, -⟩ | ⟨-, ofLang, -⟩)
  · exact absurd primitive (Bool.eq_false_iff.1 notPrimitive)
  · exact absurd primitive (Bool.eq_false_iff.1 notPrimitive)
  · exact absurd primitive (Bool.eq_false_iff.1 (not_isPrimitive_of_lang ofLang))

theorem not_misread_of_not_bare (notPrimitive : type.isPrimitive = false)
    (notBare : ¬imports.Bare type) (packaged : type.package ≠ []) :
    ¬(imports.use type).Misread imports peers := by
  have notSimple : imports.spelling type ≠ type.simple.text :=
    fun bareSpelling => notBare (bare_of_spelling notPrimitive packaged bareSpelling)
  rintro (⟨bareSpelling, -, -⟩ | ⟨noPackage, -, -⟩ | ⟨bareSpelling, -, -⟩)
  · exact notSimple bareSpelling
  · exact packaged noPackage
  · exact notSimple bareSpelling

/-- A type that is written by its simple name, which is no keyword, is misread only if it
is hidden. -/
theorem misread_iff_of_bare (notKeyword : (TypeName.unpackaged type.simple).isPrimitive = false)
    (notPrimitive : type.isPrimitive = false) (bare : imports.Bare type) :
    (imports.use type).Misread imports peers ↔
      type.package = TypeName.langPackage ∧
        ∃ peer ∈ peers, peer.simple = type.simple ∧ peer ≠ type := by
  constructor
  · rintro (⟨-, -, isKeyword⟩ | ⟨noPackage, -, lost⟩ |
      ⟨-, ofLang, member, sameSimple, different⟩)
    · exact absurd isKeyword (Bool.eq_false_iff.1 notKeyword)
    · rcases bare with owned | ⟨unowned, ofLang⟩
      · exact absurd owned lost
      · exact absurd noPackage (packaged_of_lang ofLang)
    · exact ⟨ofLang, _, member, sameSimple, different⟩
  · rintro ⟨ofLang, peer, member, sameSimple, different⟩
    exact .hidden (spelling_of_bare notPrimitive bare) ofLang member sameSimple different

end

end Imports

/-! ## Names in an environment -/

namespace Environment

variable {environment : Environment} {imports : Imports} {claimed : TypeName → Prop}

theorem mem_peers {type : TypeName} :
    type ∈ environment.peers ↔
      type ∈ environment.existing ∧ type.package = environment.package := by
  rw [peers, List.mem_filter, decide_eq_true_eq]

/-- Whether an environment is that of a file with the given imports in which the claimants
exist. -/
structure Agrees (environment : Environment) (imports : Imports)
    (claimed : TypeName → Prop) : Prop where
  package : environment.package = imports.unit.package
  imported : ∀ type, type ∈ environment.imported ↔
    type ∈ imports.owners ∧ imports.needsImport type = true
  existing : ∀ type, claimed type → type ∈ environment.existing

/-- A simple name that is not imported means a type of `java.lang` unless a peer has it. -/
theorem meaning_eq_lang_iff {simple : Identifier}
    (notKeyword : (TypeName.unpackaged simple).isPrimitive = false)
    (notImported : ∀ type ∈ environment.imported, type.simple ≠ simple) :
    environment.meaning (.unpackaged simple) = .lang simple ↔
      ¬∃ peer ∈ environment.peers, peer.simple = simple ∧ peer ≠ .lang simple := by
  have noImport : environment.imported.find? (fun type => type.simple = simple) = none := by
    simpa using notImported
  have named : (TypeName.unpackaged simple).simple = simple := rfl
  have noPackage : (TypeName.unpackaged simple).package = [] := rfl
  rw [meaning, notKeyword, noPackage, named, noImport]
  simp only [ne_eq, not_true_eq_false, Bool.false_eq_true, or_self, if_false]
  by_cases peerExists : ⟨environment.package, simple⟩ ∈ environment.existing
  · rw [if_pos peerExists]
    constructor
    · rintro same ⟨peer, member, sameSimple, different⟩
      apply different
      rw [← same, TypeName.mk.injEq]
      exact ⟨(mem_peers.1 member).2, sameSimple⟩
    · intro unhidden
      by_contra different
      exact unhidden ⟨_, mem_peers.2 ⟨peerExists, rfl⟩, rfl, different⟩
  · rw [if_neg peerExists]
    refine iff_of_true rfl ?_
    rintro ⟨peer, member, rfl, -⟩
    obtain ⟨memberExists, samePackage⟩ := mem_peers.1 member
    apply peerExists
    rwa [← samePackage]

/-- An occurrence of a type of `java.lang` is read as that type unless it is misread, in any
file that imports nothing of its simple name. -/
theorem read?_useLang_eq_iff {simple : Identifier}
    (notKeyword : (TypeName.unpackaged simple).isPrimitive = false)
    (notImported : ∀ type ∈ environment.imported, type.simple ≠ simple) :
    environment.read? (imports.useLang simple).spelling = some (.lang simple) ↔
      ¬(imports.useLang simple).Misread imports environment.peers := by
  have notPrimitive : (TypeName.lang simple).isPrimitive = false := rfl
  have spelled : (imports.useLang simple).spelling = imports.spelling (.lang simple) := rfl
  rw [spelled, Imports.read?_spelling, Option.some.injEq]
  by_cases bare : imports.Bare (.lang simple)
  · rw [Imports.written_of_bare notPrimitive bare]
    have misread : (imports.useLang simple).Misread imports environment.peers ↔ _ :=
      Imports.misread_iff_of_bare notKeyword notPrimitive bare
    rw [misread]
    refine (meaning_eq_lang_iff notKeyword notImported).trans (not_congr ?_)
    exact (and_iff_right rfl).symm
  · rw [Imports.written_of_not_bare notPrimitive bare]
    have packaged := packaged_of_lang (Eq.refl (TypeName.lang simple).package)
    exact iff_of_true (if_pos (.inl packaged))
      (Imports.not_misread_of_not_bare notPrimitive bare packaged)

variable (agrees : environment.Agrees imports claimed) (serves : imports.Serves claimed)
include agrees serves

theorem find?_imported (simple : Identifier) :
    environment.imported.find? (fun type => type.simple = simple) =
      (imports.ownerOf? simple).filter imports.needsImport := by
  cases found : environment.imported.find? fun type => type.simple = simple with
  | none =>
      rw [List.find?_eq_none] at found
      symm
      rw [Option.filter_eq_none_iff]
      intro owner owned needed
      have sameSimple := Imports.simple_of_ownerOf? owned
      have member : owner ∈ imports.owners := by
        rw [serves.mem_owners_iff, sameSimple]
        exact owned
      exact found owner ((agrees.imported owner).2 ⟨member, needed⟩) (decide_eq_true sameSimple)
  | some type =>
      have sameSimple : type.simple = simple := by simpa using List.find?_some found
      obtain ⟨member, needed⟩ := (agrees.imported type).1 (List.mem_of_find?_eq_some found)
      rw [serves.mem_owners_iff, sameSimple] at member
      rw [member, Option.filter_some_pos needed]

/-- What a simple name means that is no keyword. -/
theorem meaning_unpackaged {simple : Identifier}
    (notKeyword : (TypeName.unpackaged simple).isPrimitive = false) :
    environment.meaning (.unpackaged simple) =
      ((imports.ownerOf? simple).filter imports.needsImport).getD
        (if ⟨environment.package, simple⟩ ∈ environment.existing then
          ⟨environment.package, simple⟩
        else
          .lang simple) := by
  have named : (TypeName.unpackaged simple).simple = simple := rfl
  have noPackage : (TypeName.unpackaged simple).package = [] := rfl
  rw [meaning, notKeyword, noPackage, named, find?_imported agrees serves]
  cases (imports.ownerOf? simple).filter imports.needsImport <;> simp

/-- The simple name of a type that owns it means the type, `java.lang` apart. -/
theorem meaning_of_owned {type : TypeName}
    (notKeyword : (TypeName.unpackaged type.simple).isPrimitive = false)
    (notPrimitive : type.isPrimitive = false) (notLang : type.package ≠ TypeName.langPackage)
    (owned : imports.ownerOf? type.simple = some type) :
    environment.meaning (.unpackaged type.simple) = type := by
  rw [meaning_unpackaged agrees serves notKeyword, owned]
  by_cases needed : imports.needsImport type = true
  · rw [Option.filter_some_pos needed, Option.getD_some]
  · have notImplicit : type.isImplicit = false := by
      rw [← Bool.not_eq_true, isImplicit_iff notPrimitive]
      exact notLang
    have samePackage : type.package = environment.package := by
      rw [agrees.package]
      simpa [Imports.needsImport, notImplicit] using needed
    have typeExists : type ∈ environment.existing :=
      agrees.existing type (serves.known type ((serves.mem_owners_iff type).2 owned))
    rw [Option.filter_some_neg (Bool.eq_false_iff.2 needed), Option.getD_none, ← samePackage,
      if_pos typeExists]

/-- A type that is written by its simple name, because the name is its own or nobody's,
is read as itself unless a peer hides it. -/
theorem meaning_eq_iff_of_bare {type : TypeName}
    (notKeyword : (TypeName.unpackaged type.simple).isPrimitive = false)
    (notPrimitive : type.isPrimitive = false) (bare : imports.Bare type) :
    environment.meaning (.unpackaged type.simple) = type ↔
      ¬(type.package = TypeName.langPackage ∧
        ∃ peer ∈ environment.peers, peer.simple = type.simple ∧ peer ≠ type) := by
  by_cases ofLang : type.package = TypeName.langPackage
  · have isLang := eq_lang ofLang
    have notImported : ∀ imported ∈ environment.imported, imported.simple ≠ type.simple := by
      intro imported member sameSimple
      obtain ⟨owner, needed⟩ := (agrees.imported imported).1 member
      rw [serves.mem_owners_iff, sameSimple] at owner
      rcases bare with owned | ⟨unowned, -⟩
      · obtain rfl := Option.some.inj (owned.symm.trans owner)
        rw [Imports.needsImport, (isImplicit_iff notPrimitive).2 ofLang] at needed
        cases needed
      · rw [unowned] at owner
        cases owner
    have read := meaning_eq_lang_iff notKeyword notImported
    rw [← isLang] at read
    simp only [ofLang, true_and]
    exact read
  · have owned : imports.ownerOf? type.simple = some type :=
      bare.resolve_right fun unowned => ofLang unowned.2
    refine iff_of_true (meaning_of_owned agrees serves notKeyword notPrimitive ofLang owned) ?_
    exact fun hidden => ofLang hidden.1

/-- A type without a package whose simple name belongs to another type is not read as
itself. -/
theorem meaning_ne_of_lost {type : TypeName} (claims : claimed type)
    (noPackage : type.package = []) (notPrimitive : type.isPrimitive = false)
    (lost : imports.ownerOf? type.simple ≠ some type) :
    environment.meaning type ≠ type := by
  have isSimple := eq_unpackaged noPackage
  have notKeyword : (TypeName.unpackaged type.simple).isPrimitive = false := by
    rwa [← isSimple]
  obtain ⟨owner, owned, notHidden⟩ := serves.owned type claims notPrimitive
  have different : owner ≠ type := by
    rintro rfl
    exact lost owned
  have sameSimple := Imports.simple_of_ownerOf? owned
  have read := meaning_unpackaged agrees serves notKeyword
  rw [← isSimple, owned] at read
  rw [read]
  by_cases needed : imports.needsImport owner = true
  · rw [Option.filter_some_pos needed, Option.getD_some]
    exact different
  · rw [Option.filter_some_neg (Bool.eq_false_iff.2 needed), Option.getD_none]
    split
    · intro isPeer
      -- The file has no package either, so the type would have taken its simple name.
      have samePackage : type.package = imports.unit.package := by
        rw [← agrees.package, ← congrArg TypeName.package isPeer]
      have notPrimitiveOwner : owner.isPrimitive = false := by
        rw [← Bool.not_eq_true]
        intro primitive
        apply different
        rw [eq_unpackaged (package_eq_nil_of_isPrimitive primitive), sameSimple, ← isSimple]
      exact needed (Imports.needsImport_of_not_hides notPrimitiveOwner samePackage sameSimple
        different notHidden)
    · intro isLang
      have ofLang := congrArg TypeName.package isLang
      rw [noPackage] at ofLang
      cases ofLang

/-- An occurrence is read as the type that is meant unless it is misread. -/
theorem read?_use_eq_iff {type : TypeName}
    (meant : type.isPrimitive = true ∨ claimed type ∨ type.package = TypeName.langPackage) :
    environment.read? (imports.use type).spelling = some type ↔
      ¬(imports.use type).Misread imports environment.peers := by
  have spelled : (imports.use type).spelling = imports.spelling type := rfl
  rw [spelled, Imports.read?_spelling, Option.some.injEq]
  by_cases primitive : type.isPrimitive = true
  · rw [Imports.written, if_pos primitive]
    exact iff_of_true (if_pos (.inr primitive)) (Imports.not_misread_of_isPrimitive primitive)
  · have notPrimitive := Bool.eq_false_iff.2 primitive
    by_cases bare : imports.Bare type
    · rw [Imports.written_of_bare notPrimitive bare]
      by_cases keyword : (TypeName.unpackaged type.simple).isPrimitive = true
      · have bareSpelling := Imports.spelling_of_bare notPrimitive bare
        refine iff_of_false ?_ fun read => read (.keyword bareSpelling notPrimitive keyword)
        rw [meaning, if_pos (.inr keyword)]
        intro same
        rw [same] at keyword
        exact primitive keyword
      · have notKeyword := Bool.eq_false_iff.2 keyword
        rw [meaning_eq_iff_of_bare agrees serves notKeyword notPrimitive bare,
          Imports.misread_iff_of_bare notKeyword notPrimitive bare]
    · rw [Imports.written_of_not_bare notPrimitive bare]
      by_cases noPackage : type.package = []
      · have notOwned : imports.ownerOf? type.simple ≠ some type := fun owned => bare (.inl owned)
        have claims : claimed type := by
          rcases meant with isPrimitive | claims | ofLang
          · exact absurd isPrimitive primitive
          · exact claims
          · exact absurd noPackage (packaged_of_lang ofLang)
        refine iff_of_false ?_ fun read => read (.unpackaged noPackage notPrimitive notOwned)
        exact meaning_ne_of_lost agrees serves claims noPackage notPrimitive notOwned
      · exact iff_of_true (if_pos (.inl noPackage))
          (Imports.not_misread_of_not_bare notPrimitive bare noPackage)

end Environment

namespace Imports

variable {imports : Imports} {claimed : TypeName → Prop}

/-- A type without a package keeps its simple name when a peer claims one. -/
theorem owned_claim_iff (serves : imports.Serves claimed) {type : TypeName}
    (claims : claimed type) (noPackage : type.package = [])
    (notPrimitive : type.isPrimitive = false) (peer : TypeName) :
    (imports.claim peer).ownerOf? type.simple = some type ↔
      imports.ownerOf? type.simple = some type := by
  rw [ownerOf?_claim]
  by_cases taken : type.simple = peer.simple ∧ imports.wins peer = true
  · rw [if_pos taken]
    obtain ⟨sameSimple, wins⟩ := taken
    obtain ⟨owner, owned, notHidden⟩ := serves.owned type claims notPrimitive
    have hidden : imports.hides peer owner = true := hides_of_wins (sameSimple ▸ owned) wins
    refine iff_of_false ?_ ?_
    · intro isType
      rw [Option.some.inj isType, notHidden] at hidden
      cases hidden
    · intro ownedByType
      rw [owned] at ownedByType
      obtain ⟨-, ofLang, -⟩ := (hides_eq_true_iff _ _ _).1 hidden
      rw [Option.some.inj ownedByType, noPackage] at ofLang
      cases ofLang
  · rw [if_neg taken]

/-- A claimant of the file's package does not hide a type of `java.lang` that is written
by its simple name, unless that is a keyword. -/
theorem isPrimitive_of_claimed (serves : imports.Serves claimed) {type peer : TypeName}
    (ofLang : type.package = TypeName.langPackage) (bare : imports.Bare type)
    (package : peer.package = imports.unit.package) (sameSimple : peer.simple = type.simple)
    (different : peer ≠ type) (claims : claimed peer) : peer.isPrimitive = true := by
  by_contra notPrimitive
  obtain ⟨owner, owned, notHidden⟩ := serves.owned peer claims (Bool.eq_false_iff.2 notPrimitive)
  rw [sameSimple] at owned
  rcases bare with ownedByType | ⟨unowned, -⟩
  · obtain rfl := Option.some.inj (ownedByType.symm.trans owned)
    have hidden := (hides_eq_true_iff imports peer type).2 ⟨package, ofLang, different.symm⟩
    rw [hidden] at notHidden
    cases notHidden
  · rw [unowned] at owned
    cases owned

end Imports

/-- Of the peers that exist only those hide a type that have not claimed their simple
names. -/
theorem Environment.misread_iff {environment : Environment} {imports final : Imports}
    {claimed : TypeName → Prop} (serves : imports.Serves claimed)
    (package : environment.package = imports.unit.package) {hiders : List TypeName}
    (peers : ∀ peer ∈ environment.peers, claimed peer ∨ peer ∈ hiders)
    (contained : ∀ hider ∈ hiders, hider ∈ environment.peers) {type : TypeName}
    (kept : type.package = [] → type.isPrimitive = false →
      (final.ownerOf? type.simple = some type ↔ imports.ownerOf? type.simple = some type)) :
    (imports.use type).Misread imports environment.peers ↔
      (imports.use type).Misread final hiders := by
  constructor
  · rintro (⟨bare, notPrimitive, isKeyword⟩ | ⟨noPackage, notPrimitive, lost⟩ |
      ⟨bare, ofLang, member, sameSimple, different⟩)
    · exact .keyword bare notPrimitive isKeyword
    · exact .unpackaged noPackage notPrimitive fun owned =>
        lost ((kept noPackage notPrimitive).1 owned)
    · rename_i peer
      rcases peers peer member with claims | hider
      · have notPrimitive := not_isPrimitive_of_lang ofLang
        have isBare := Imports.bare_of_spelling notPrimitive (packaged_of_lang ofLang) bare
        have peerPackage := (mem_peers.1 member).2.trans package
        have primitive := Imports.isPrimitive_of_claimed serves ofLang isBare peerPackage
          sameSimple different claims
        rw [eq_unpackaged (package_eq_nil_of_isPrimitive primitive), sameSimple] at primitive
        exact .keyword bare notPrimitive primitive
      · exact .hidden bare ofLang hider sameSimple different
  · rintro (⟨bare, notPrimitive, isKeyword⟩ | ⟨noPackage, notPrimitive, lost⟩ |
      ⟨bare, ofLang, member, sameSimple, different⟩)
    · exact .keyword bare notPrimitive isKeyword
    · exact .unpackaged noPackage notPrimitive fun owned =>
        lost ((kept noPackage notPrimitive).2 owned)
    · exact .hidden bare ofLang (contained _ member) sameSimple different

/-- Whether occurrences of types in a file are read as the types that are meant unless they
are misread, so that those of one spelling are of one type. -/
structure Environment.ReadsUnlessMisread (environment : Environment) (imports : Imports)
    (hiders : List TypeName) (uses : List TypeUse) : Prop where
  read : ∀ use ∈ uses,
    environment.read? use.spelling = some use.type ↔ ¬use.Misread imports hiders
  apart : ∀ first ∈ uses, ∀ second ∈ uses, first.spelling = second.spelling →
    ¬first.Misread imports hiders → ¬second.Misread imports hiders → first.type = second.type

theorem Environment.readsUnlessMisread {environment : Environment} {imports : Imports}
    {hiders : List TypeName} {uses : List TypeUse}
    (read : ∀ use ∈ uses,
      environment.read? use.spelling = some use.type ↔ ¬use.Misread imports hiders) :
    environment.ReadsUnlessMisread imports hiders uses where
  read := read
  apart := by
    intro first firstMember second secondMember sameSpelling firstFine secondFine
    have firstRead := (read first firstMember).2 firstFine
    have secondRead := (read second secondMember).2 secondFine
    rw [sameSpelling] at firstRead
    exact Option.some.inj (firstRead.symm.trans secondRead)

end AheadOfTime.Java
