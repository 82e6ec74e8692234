import TypeBridge.Proofs.Declaration.Registry
import TypeBridge.Proofs.Output.Entry
import TypeBridge.Proofs.Source.Reading
import TypeBridge.Proofs.TypeExpr.WellFormed
import TypeBridge.Source.Unit

/-!
# Names of types inside of others

A member may give a type by its name alone that is inside of the type of the member, or inside of one around
that. Written is the name of the innermost of these that has such a type inside of it, a dot, and the name. But
types are looked up by their names alone, so a type that is called like one of these, wherever it is declared,
counts for it. What is written is right just if that does not lead astray.

Results:
* `memberType_name`: what is written for a name.
* `find?_eq_innermost?_iff`: when looking types up by their names finds the innermost one.
* `nestedName_written_iff`: both for the members of all types of some sources.
-/
namespace TypeBridge

/-! ## Types that have others inside of them -/

section Declarations

variable (units : List SourceUnit) (space : String) (name : String)

/-- Whether a type called `name` is declared directly inside of a type in a namespace; the path gives the name of
that type and of those around it, the innermost first. A partial type may be declared more than once. -/
def declares (path : List String) : Bool :=
  (TypeDeclaration.placedAll [] (DeclarationSet.groupOf units space).types).any fun found =>
    found.type.name :: found.owners == path && found.type.hasNested name

/-- Whether a type called `name` is declared directly inside of some type called `owner`. -/
def declaresAnywhere (owner : String) : Bool :=
  (TypeDeclaration.placedAll [] (units.flatMap (·.types))).any fun found =>
    found.type.name == owner && found.type.hasNested name

/-- The innermost type on a path that has a type called `name` directly inside of it. -/
def innermost? : List String → Option String
  | [] => none
  | owner :: around => if declares units space name (owner :: around) then some owner else innermost? around

/-- What it means that looking types up by their names alone leads astray: the first type on the path that is
called like one that has a type called `name` inside of it has none itself, and it is not called like the
innermost type that has one either. -/
inductive LeadsAstray : List String → Prop
  | here {owner : String} {around : List String} : declaresAnywhere units name owner = true →
      declares units space name (owner :: around) = false → innermost? units space name around ≠ some owner →
      LeadsAstray (owner :: around)
  | further {nearer : String} {around : List String} : declaresAnywhere units name nearer = false →
      LeadsAstray around → LeadsAstray (nearer :: around)

end Declarations

variable {units : List SourceUnit} {space name : String}

theorem declaresAnywhere_of_declares {owner : String} {around : List String}
    (h : declares units space name (owner :: around) = true) : declaresAnywhere units name owner = true := by
  simp only [declares, declaresAnywhere, List.any_eq_true, Bool.and_eq_true, beq_iff_eq] at h ⊢
  obtain ⟨found, hfound, hpath, hname⟩ := h
  refine ⟨found, ?_, (List.cons.inj hpath).1, hname⟩
  rw [TypeDeclaration.placedAll_eq_flatMap, List.mem_flatMap] at hfound ⊢
  obtain ⟨type, htype, hplaced⟩ := hfound
  exact ⟨type, (List.mem_filter.1 htype).1, hplaced⟩

/-- Looking types up by their names finds the innermost one just if it does not lead astray. -/
theorem find?_eq_innermost?_iff (path : List String) :
    path.find? (declaresAnywhere units name) = innermost? units space name path ↔
      ¬ LeadsAstray units space name path := by
  induction path with
  | nil => exact ⟨fun _ h => (nomatch h), fun _ => rfl⟩
  | cons owner around ih =>
    rw [List.find?_cons, innermost?]
    by_cases hown : declares units space name (owner :: around) = true
    · -- The type itself has one inside of it, so it is found, and nothing leads astray.
      have hany := declaresAnywhere_of_declares hown
      rw [hany, if_pos hown]
      refine ⟨fun _ h => ?_, fun _ => rfl⟩
      cases h with
      | here _ hnot _ => rw [hown] at hnot; cases hnot
      | further hnone _ => rw [hany] at hnone; cases hnone
    · rw [Bool.not_eq_true] at hown
      rw [if_neg (by simp [hown])]
      cases hany : declaresAnywhere units name owner with
      | true =>
        constructor
        · intro heq h
          cases h with
          | here _ _ hne => exact hne heq.symm
          | further hnone _ => rw [hany] at hnone; cases hnone
        · intro h
          by_contra hne
          exact h (.here hany hown fun heq => hne heq.symm)
      | false =>
        rw [ih, not_iff_not]
        refine ⟨.further hany, fun h => ?_⟩
        cases h with
        | here hsome _ _ => rw [hany] at hsome; cases hsome
        | further _ h => exact h

theorem owns_eq_declaresAnywhere (units : List SourceUnit) (owner name : String) :
    (DeclarationSet.ofUnits units).registry.owns owner name = declaresAnywhere units name owner := by
  rw [Bool.eq_iff_iff, DeclarationSet.owns_ofUnits, declaresAnywhere, List.any_eq_true]
  simp only [Bool.and_eq_true, beq_iff_eq]

/-! ## What is written -/

/-- A name behind the name of the type that it is inside of, if there is one. -/
def qualifiedName (owner? : Option String) (name : String) : String :=
  match owner? with
  | some owner => owner ++ "." ++ name
  | none => name

theorem qualifiedName_inj {owner? other? : Option String} {name : String} :
    qualifiedName owner? name = qualifiedName other? name ↔ owner? = other? := by
  have hne : ∀ owner : String, owner ++ "." ++ name ≠ name := by
    intro owner heq
    have hlength := congrArg String.length heq
    rw [String.length_append, String.length_append] at hlength
    have : ".".length = 1 := rfl
    omega
  refine ⟨fun h => ?_, fun h => h ▸ rfl⟩
  cases owner? with
  | none =>
    cases other? with
    | none => rfl
    | some other => exact absurd h.symm (hne other)
  | some owner =>
    cases other? with
    | none => exact absurd h (hne owner)
    | some other =>
      have h : owner ++ "." ++ name = other ++ "." ++ name := h
      rw [String.append_left_inj, String.append_left_inj] at h
      rw [h]

/-- A text that ends with an identifier has no mark of optional types. -/
theorem splitOptional_append_identifier (before : String) {name : String} (h : IsIdentifier name) :
    TypeText.splitOptional (before ++ name) = (before ++ name, false) := by
  obtain ⟨c, r, htext, hc, hr⟩ := h
  have hchars : ∀ d ∈ name.toList, TypeExpr.isNameChar d = true := by
    rw [htext]
    refine List.forall_mem_cons.2 ⟨?_, hr⟩
    simp only [TypeExpr.isNameStart, TypeExpr.isNameChar, Char.isAlphanum, Bool.or_eq_true] at hc ⊢
    tauto
  obtain ⟨most, last, hname⟩ := (List.eq_nil_or_concat name.toList).resolve_left (by simp [htext])
  have hlast : TypeExpr.isNameChar last = true := hchars last (by simp [hname])
  rw [TypeText.splitOptional, String.toList_append, hname]
  simp only [List.concat_eq_append, List.reverse_append, List.reverse_cons, List.reverse_nil, List.nil_append,
    List.cons_append]
  split
  · rename_i heq
    cases heq
    cases hlast
  · rfl

namespace Output

open Source (Token spaced)

/-- What is written for a member whose type is a name that no rule knows. -/
theorem memberType_name {translator : Translator} (scope : Scope) {member : Member} {name : String}
    (htype : TypeExpr.tokens member.type = .ok [.name name]) (hscalar : translator.options.scalars.get? name = none)
    (hasync : name ∉ translator.options.asyncResults) (haction : name ≠ "Action") :
    memberType translator scope member =
      ((member.attribute? translator.options.allowAbsentAttributes).isSome,
        qualifiedName (translator.registry.owner? scope name) name) := by
  have hname : IsIdentifier name := TypeExpr.isIdentifier_of_mem_tokens htype (List.mem_singleton_self _)
  have hparse : TypeExpr.parse member.type = .ok (.named ⟨[], name⟩) :=
    TypeExpr.parse_eq_ok.2 ⟨_, htype, .type (.named (.plain name [])) .noSuffix⟩
  have hsimple : translator.simpleText scope name =
      qualifiedName (translator.registry.owner? scope name) name := by
    rw [Translator.simpleText, hscalar]
    simp only [List.contains_iff_mem, hasync, haction, if_false]
    cases translator.registry.owner? scope name <;> rfl
  have htext : translator.translate scope member.type =
      qualifiedName (translator.registry.owner? scope name) name := by
    rw [Translator.translate, hparse, ← hsimple]
    simp only [Translator.text, Translator.core]
    rfl
  have hsplit : TypeText.splitOptional (qualifiedName (translator.registry.owner? scope name) name) =
      (qualifiedName (translator.registry.owner? scope name) name, false) := by
    cases translator.registry.owner? scope name with
    | none => simpa [qualifiedName] using splitOptional_append_identifier "" hname
    | some owner => exact splitOptional_append_identifier (owner ++ ".") hname
  rw [memberType, htext, hsplit]
  rfl

theorem line_mem_allLines {entry : Entry} {entries : List Entry} (h : entry ∈ entries) :
    entry.line ∈ Entry.allLines entries :=
  List.mem_flatMap.2 ⟨entry, h, List.mem_append_right _ (List.mem_singleton_self _)⟩

/-- Each type has a block, and each of its members has a line in it. -/
theorem interface_mem_blocks (translator : Translator) {group : NamespaceGroup} {placed : PlacedType}
    (hplaced : placed ∈ TypeDeclaration.placedAll [] group.types) {member : Member}
    (hmember : member ∈ placed.type.members) :
    let scope := scopeOf group.name placed
    let indent := bodyIndent translator.options group
    interface translator scope indent placed.type ∈ blocks translator group ∧
      indent ++ translator.options.indentUnit ++ propertyCode translator scope member ∈
        interface translator scope indent placed.type := by
  intro scope indent
  constructor
  · rw [blocks, interfacesAll_eq_map]
    exact List.mem_append_right _ (List.mem_map_of_mem hplaced)
  · have hentry : propertyEntry translator scope (indent ++ translator.options.indentUnit) member ∈
        interfaceEntries translator scope indent placed.type :=
      List.mem_append_left _ (List.mem_cons_of_mem _ (List.mem_map_of_mem hmember))
    rw [← lines_interfaceEntries]
    have hline := line_mem_allLines hentry
    exact hline

/-- The types that are written for members whose types are names, when no rule knows the names. A name is written
behind the name of the first type around the member that is called like one with such a type inside of it. That
is the innermost type around the member that itself has such a type inside of it, and the name stands alone when
there is none, just if looking types up by their names does not lead astray. -/
theorem nestedName_written_iff {options : Options} {units : List SourceUnit} {outermost : TypeDeclaration}
    (houtermost : outermost ∈ units.flatMap (·.types)) {placed : PlacedType}
    (hplaced : placed ∈ TypeDeclaration.placed [] outermost) {member : Member} (hmember : member ∈ placed.type.members)
    {name : String} (htype : TypeExpr.tokens member.type = .ok [.name name])
    (hscalar : options.scalars.get? name = none) (hasync : name ∉ options.asyncResults) (haction : name ≠ "Action") :
    let set := DeclarationSet.ofUnits units
    let space := outermost.namespaceName
    let path := placed.type.name :: placed.owners
    let scope := scopeOf space placed
    let written := (memberType (translator options set) scope member).2
    let mark := if (member.attribute? options.allowAbsentAttributes).isSome then "?" else ""
    (∃ group ∈ set.groups, group.name = space ∧
      let block := interface (translator options set) scope (bodyIndent options group) placed.type
      block ∈ blocks (translator options set) group ∧
        bodyIndent options group ++ options.indentUnit ++
          (propertyName member.name ++ mark ++ ": " ++ written ++ ";") ∈ block) ∧
      written = qualifiedName (path.find? (declaresAnywhere units name)) name ∧
      (written = qualifiedName (innermost? units space name path) name ↔ ¬ LeadsAstray units space name path) := by
  intro set space path scope written mark
  have howner : set.registry.owner? scope name = path.find? (declaresAnywhere units name) := by
    have howns : (set.registry.owns · name) = declaresAnywhere units name :=
      funext fun owner => owns_eq_declaresAnywhere units owner name
    rw [← howns]
    rfl
  have hmemberType : memberType (translator options set) scope member =
      ((member.attribute? options.allowAbsentAttributes).isSome,
        qualifiedName (path.find? (declaresAnywhere units name)) name) := by
    rw [← howner]
    exact memberType_name scope htype hscalar hasync haction
  have hwritten : written = qualifiedName (path.find? (declaresAnywhere units name)) name :=
    congrArg Prod.snd hmemberType
  refine ⟨⟨DeclarationSet.groupOf units space, DeclarationSet.groupOf_mem_groups houtermost, rfl, ?_⟩, hwritten, ?_⟩
  · have hgroup : placed ∈ TypeDeclaration.placedAll [] (DeclarationSet.groupOf units space).types := by
      rw [TypeDeclaration.placedAll_eq_flatMap]
      exact List.mem_flatMap.2 ⟨outermost, List.mem_filter.2 ⟨houtermost, decide_eq_true rfl⟩, hplaced⟩
    have hcode : propertyCode (translator options set) scope member =
        propertyName member.name ++ mark ++ ": " ++ written ++ ";" := by
      rw [propertyCode, hwritten, hmemberType]
    rw [← hcode]
    exact interface_mem_blocks (translator options set) hgroup hmember
  · rw [hwritten, qualifiedName_inj]
    exact find?_eq_innermost?_iff path

/-- A type with a member that has a type of the same namespace. -/
def userType : TypeDeclaration :=
  { name := "User", namespaceName := "A", members := [{ name := "Home", type := "Address" }] }

/-- Two types of a namespace, neither inside of the other. -/
def userUnit : SourceUnit := { types := [userType, { name := "Address", namespaceName := "A" }] }

/-- The same two types, but in another namespace and one inside of the other. -/
def namesakeUnit : SourceUnit :=
  { types := [
      { name := "User", namespaceName := "B", nested := [{ name := "Address", namespaceName := "B" }] }] }

/-- The tokens of the source with `userUnit`. -/
def userTokens : List Token := [
  ⟨[], .word, "namespace"⟩, spaced .word "A", spaced .mark "\x7b",
  spaced .word "class", spaced .word "User", spaced .mark "\x7b",
  spaced .word "public", spaced .word "Address", spaced .word "Home",
  spaced .mark "\x7b", spaced .word "get", ⟨[], .mark, ";"⟩, spaced .mark "\x7d", spaced .mark "\x7d",
  spaced .word "class", spaced .word "Address", spaced .mark "\x7b", spaced .mark "\x7d", spaced .mark "\x7d"]

/-- The tokens of the source with `namesakeUnit`. -/
def namesakeTokens : List Token := [
  ⟨[], .word, "namespace"⟩, spaced .word "B", spaced .mark "\x7b",
  spaced .word "class", spaced .word "User", spaced .mark "\x7b",
  spaced .word "class", spaced .word "Address", spaced .mark "\x7b", spaced .mark "\x7d",
  spaced .mark "\x7d", spaced .mark "\x7d"]

/-- A type of another namespace leads astray: the type of a member is written as if it were inside of the type with
the member, which has no type inside of it. -/
theorem nestedName_written_astray :
    Source.unit? {}
        "namespace A \x7b class User \x7b public Address Home \x7b get; \x7d \x7d class Address \x7b \x7d \x7d" =
      some userUnit ∧
    Source.unit? {} "namespace B \x7b class User \x7b class Address \x7b \x7d \x7d \x7d" = some namesakeUnit ∧
    ∀ member ∈ userType.members,
      let written := (memberType (translator {} (.ofUnits [userUnit, namesakeUnit])) (scopeOf "A" ⟨[], userType⟩)
        member).2
      written = "User.Address" ∧
        written ≠ qualifiedName (innermost? [userUnit, namesakeUnit] "A" "Address" ["User"]) "Address" := by
  have huser : Token.ofSource?
      "namespace A \x7b class User \x7b public Address Home \x7b get; \x7d \x7d class Address \x7b \x7d \x7d".toList =
        some userTokens := by decide +kernel
  have hnamesake : Token.ofSource? "namespace B \x7b class User \x7b class Address \x7b \x7d \x7d \x7d".toList =
      some namesakeTokens := by decide +kernel
  refine ⟨?_, ?_, fun member hmember => ?_⟩
  · rw [Source.unit?, Source.items?_of_tokens huser]
    rfl
  · rw [Source.unit?, Source.items?_of_tokens hnamesake]
    rfl
  have htokens : TypeExpr.tokens member.type = .ok [.name "Address"] := by
    rw [List.mem_singleton.1 hmember]
    decide +kernel
  have hastray : LeadsAstray [userUnit, namesakeUnit] "A" "Address" ["User"] :=
    .here (by decide) (by decide) (by decide)
  have hspec := @nestedName_written_iff {} [userUnit, namesakeUnit] userType List.mem_cons_self ⟨[], userType⟩
    List.mem_cons_self member hmember "Address" htokens (by decide) (by decide) (by decide)
  have hfound : ["User"].find? (declaresAnywhere [userUnit, namesakeUnit] "Address") = some "User" := by decide
  exact ⟨hspec.2.1.trans (congrArg (qualifiedName · "Address") hfound), fun h => hspec.2.2.1 h hastray⟩

end Output

end TypeBridge
