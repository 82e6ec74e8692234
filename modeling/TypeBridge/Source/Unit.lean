import TypeBridge.Options
import TypeBridge.Source.Reader

/-!
# Declarations of a source

The types and enumerations among the items of a source, each with the namespace that it is in. An
enumeration inside of a type belongs to the namespace that the type is in.
-/
namespace TypeBridge.Source

/-! ## Members -/

/-- The words that make a property no part of what others see. Mirrors `EXCLUDED_MEMBER_MODIFIERS`. -/
def hidingModifiers : List String := ["static", "private", "protected"]

/-- The words that say who sees a property. Mirrors `ACCESSIBILITY_MODIFIERS`. -/
def accessModifiers : List String := ["public", "internal", "protected", "private"]

/-- Whether a property is a part of what others see in a type of the given kind. Without a word that says
who sees it, only those of interfaces are.
Mirrors `is_exported_property`. -/
def Property.isVisible (kind : TypeKind) (property : Property) : Bool :=
  !property.isExplicit && !property.modifiers.any hidingModifiers.contains &&
    (property.modifiers.any accessModifiers.contains || kind == .interfaceType)

/-- The comments that belong to what follows them. -/
def comments (lead : List Trivia) : List String := Token.leadingComments lead

/-- The member that a property is. Mirrors `build_property_member`. -/
def Property.member (property : Property) : Member :=
  { name := property.name, type := property.type, comments := comments property.lead,
    attributes := property.attributes }

/-- The member that a parameter becomes. Mirrors `build_parameter_member`. -/
def Parameter.member (parameter : Parameter) : Member :=
  { name := parameter.name, type := parameter.type, attributes := parameter.attributes }

/-- The member that an item of a type of the given kind is, if it is one.
Mirrors the loop over members in `build_class`. -/
def Item.member? (kind : TypeKind) : Item → Option Member
  | .property p => if p.isVisible kind then some p.member else none
  | _ => none

/-! ## Types and enumerations -/

mutual
/-- The types that an item is, with those inside of them. Mirrors `build_class`. -/
def typesOf (namespaceName : String) : Item → List TypeDeclaration
  | .type header items => [{
      name := header.name
      namespaceName := namespaceName
      kind := header.kind
      parameters := header.typeParameters
      members := header.parameters.map Parameter.member ++ items.filterMap (Item.member? header.kind)
      comments := comments header.lead
      nested := typesOfAll namespaceName items }]
  | _ => []

/-- The types among some items. -/
def typesOfAll (namespaceName : String) : List Item → List TypeDeclaration
  | [] => []
  | item :: items => typesOf namespaceName item ++ typesOfAll namespaceName items
end

mutual
/-- The enumeration that an item is, or those inside of it.
Mirrors `build_enum` and its use in `build_class`. -/
def enumerationsOf (namespaceName : String) : Item → List Enumeration
  | .enumeration declaration => [{
      name := declaration.name
      namespaceName := namespaceName
      members := declaration.members
      comments := comments declaration.lead }]
  | .type _ items => enumerationsOfAll namespaceName items
  | _ => []

/-- The enumerations among some items and inside of them. -/
def enumerationsOfAll (namespaceName : String) : List Item → List Enumeration
  | [] => []
  | item :: items => enumerationsOf namespaceName item ++ enumerationsOfAll namespaceName items
end

/-! ## Namespaces -/

/-- The name of a namespace inside of another one. Mirrors `qualify_namespace`. -/
def qualify (outer : Option String) (name : String) : String :=
  match outer with
  | none => name
  | some outer => outer ++ "." ++ name

/-- The declarations of two sources, one after the other. -/
def append (first second : SourceUnit) : SourceUnit :=
  ⟨first.types ++ second.types, first.enumerations ++ second.enumerations⟩

mutual
/-- The declarations of an item in a namespace; `outer` is the one whose braces the item is in.
Mirrors the branches of `visit_container`. -/
def unitOf (usual : String) (outer current : Option String) : Item → SourceUnit
  | .namespaceBlock name items =>
    let inner := some (qualify outer name)
    unitOfAll usual inner inner items
  | item => ⟨typesOf (current.getD usual) item, enumerationsOf (current.getD usual) item⟩

/-- The declarations of some items, in order. Mirrors `visit_container`. -/
def unitOfAll (usual : String) (outer current : Option String) : List Item → SourceUnit
  | [] => {}
  | .namespaceLine name :: items => unitOfAll usual outer (some (qualify outer name)) items
  | item :: items => append (unitOf usual outer current item) (unitOfAll usual outer current items)
end

/-- The declarations of a source, when those in no namespace are put in the usual one; none if the source
breaks a rule of the language.
Mirrors `parse_source_text`. -/
def unit? (options : Options) (source : String) : Option SourceUnit :=
  (items? source.toList).map (unitOfAll options.defaultNamespace none none)

end TypeBridge.Source
