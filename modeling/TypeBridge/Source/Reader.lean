import TypeBridge.Source.Grammar.Language
import TypeBridge.Source.Syntax
import TypeBridge.Text.Blank

/-!
# Reading declarations

The items of a source. What is kept of an item is read here step by step, and everything else is only
checked against the rules of the language. Every function that reads gives what it has read and the trees
that are left, or nothing when the source breaks a rule. Where only the name of a declaration may stand, any word
is taken for it.
-/
namespace TypeBridge.Source

open Rules (attributes modifier)

/-- Reads something from the beginning of some trees. -/
abbrev Reader (α : Type) := List Tree → Option (α × List Tree)

/-! ## Text -/

/-- The name that some trees write: their text without blanks around it and without `@` before it.
Mirrors `identifier_text`. -/
def nameOf (trees : List Tree) : String :=
  .ofList ((Text.trim (Tree.textOf trees).toList).dropWhile (· == '@'))

/-- The type that some trees write, with one space for each run of blanks.
Mirrors the `type_expression` of `build_property_member`. -/
def typeOf (trees : List Tree) : String := .ofList (Text.collapseBlanks (Tree.textOf trees).toList)

/-- The text of an argument of an attribute, without the quotes around it if it begins and ends with
quotes.
Mirrors `unquote_attribute_argument`. -/
def unquote (s : List Char) : List Char :=
  let inner (r : List Char) : List Char := if r.getLast? = some '"' then r.dropLast else s
  match s with
  | '@' :: '"' :: r => inner r
  | '"' :: r => inner r
  | _ => s

/-- What stands before some trees. -/
def leadOf (trees : List Tree) : List Trivia :=
  match trees with
  | tree :: _ => tree.first.lead
  | [] => []

/-! ## Pieces -/

/-- Reads what a rule takes. -/
def take (rule : Rule Part) : Reader (List Tree) := language.split? rule

/-- Passes over a token with the given text. -/
def pass (text : String) (ts : List Tree) : Option (List Tree) := language.rest? (.text text) ts

/-- The trees of each item in a list of items with commas between them, as long as a rule takes them. -/
def itemsOf (rule : Rule Part) : Nat → List Tree → List (List Tree)
  | 0, _ => []
  | n + 1, ts =>
    match take rule ts with
    | none => []
    | some (item, rest) =>
      match pass "," rest with
      | none => [item]
      | some rest => item :: itemsOf rule n rest

/-- The trees of each item in the body of a group. -/
def itemsIn (rule : Rule Part) (body : List Tree) : List (List Tree) := itemsOf rule body.length body

/-! ## Attributes -/

/-- The body of the group that some trees begin with. -/
def bodyOf : List Tree → List Tree
  | .group _ _ body _ :: _ => body
  | _ => []

/-- An attribute; its name counts only from its last dot on.
Mirrors the inner loop of `collect_attributes`. -/
def attributeOf (trees : List Tree) : Option Attribute := do
  let (name, rest) ← take Rules.qualifiedName trees
  some {
    name := .ofList (Text.afterLast '.' (Text.trim (Tree.textOf name).toList))
    arguments := (itemsIn Rules.attributeArgument (bodyOf rest)).map fun argument =>
      .ofList (unquote (Text.trim (Tree.textOf argument).toList)) }

/-- The attributes in one pair of brackets; what depends on a condition does not count. -/
def attributesIn : Tree → List Attribute
  | .group _ _ body _ =>
    let body := (language.rest? Rules.attributeTarget body).getD body
    (itemsIn Rules.oneAttribute body).filterMap attributeOf
  | _ => []

/-- Reads attributes. Mirrors `collect_attributes`. -/
def readAttributes : Reader (List Attribute) := fun ts => do
  let (lists, rest) ← take attributes ts
  some (lists.flatMap attributesIn, rest)

/-! ## Parameters -/

/-- A parameter; none if it takes all arguments that are left. Mirrors `build_parameter_member`. -/
def parameterOf (trees : List Tree) : Option Parameter := do
  let (attributes, rest) ← readAttributes trees
  if (language.rest? Rules.restParameter rest).isSome then none
  else
    let typed := do
      let (_, rest) ← take (.many Rules.parameterModifier) rest
      let (type, rest) ← take Rules.type rest
      let (name, _) ← take .name rest
      some (type, name)
    match typed with
    | some (type, name) => some ⟨attributes, typeOf type, nameOf name⟩
    | none =>
      let (name, _) ← take .name rest
      some ⟨attributes, "", nameOf name⟩

/-- The name of a parameter of a generic type, its last tree. -/
def typeParameterOf (trees : List Tree) : String := nameOf (trees.drop (trees.length - 1))

/-! ## Headers -/

/-- A part of the header of a type after its name. -/
inductive HeaderPart where
  | typeParameterList (names : List String)
  | parameterList (parameters : List Parameter)
  /-- Bases or constraints, which are not kept. -/
  | other
  deriving DecidableEq, Repr

/-- The names of the parameters of a generic type, when the part is a list of them. -/
def HeaderPart.typeParameters? : HeaderPart → Option (List String)
  | .typeParameterList names => some names
  | _ => none

/-- The parameters of a type, when the part is a list of them. -/
def HeaderPart.parameters? : HeaderPart → Option (List Parameter)
  | .parameterList parameters => some parameters
  | _ => none

/-- Reads a part of the header of a type. -/
def readHeaderPart : Reader HeaderPart := fun ts =>
  match ts with
  | .leaf token :: afterMark =>
    match token.text with
    | "<" => do
      let (_, rest) ← take Rules.typeParameters ts
      some (.typeParameterList ((itemsIn Rules.typeParameter afterMark).map typeParameterOf), rest)
    | ":" => do
      let (_, rest) ← take Rules.bases ts
      some (.other, rest)
    | _ => do
      let (_, rest) ← take Rules.constraints ts
      some (.other, rest)
  | .group .round _ body _ :: _ => do
    let (_, rest) ← take Rules.parameters ts
    some (.parameterList ((itemsIn Rules.parameter body).filterMap parameterOf), rest)
  | _ => none

/-- Reads the parts of a header, at most as many as the number says. -/
def readHeaderParts : Nat → List Tree → List HeaderPart × List Tree
  | 0, ts => ([], ts)
  | n + 1, ts =>
    match readHeaderPart ts with
    | some (part, rest) =>
      let (parts, rest) := readHeaderParts n rest
      (part :: parts, rest)
    | none => ([], ts)

/-- The header of a type with the given parts after its name. Of several lists of the same kind only the
first one counts, even if it is empty.
Mirrors the two uses of `find_child` at the beginning of `build_class`. -/
def headerOf (lead : List Trivia) (kind : TypeKind) (name : String) (parts : List HeaderPart) : TypeHeader :=
  { lead := lead, kind := kind, name := name
    typeParameters := (parts.findSome? HeaderPart.typeParameters?).getD []
    parameters := (parts.findSome? HeaderPart.parameters?).getD [] }

/-! ## Types -/

/-- Reads the words that say the kind of a type. Mirrors `CLASS_LIKE_NODE_KINDS`. -/
def readTypeKind : Reader TypeKind := fun ts =>
  let kinds : List (Rule Part × TypeKind) := [
    ("class", .classType),
    (.seq (.opt "ref") (.seq (.opt "partial") "struct"), .structType),
    ("interface", .interfaceType),
    (.seq "record" (.opt (.choice "class" "struct")), .recordType)]
  kinds.findSome? fun (rule, kind) => (language.rest? rule ts).map (kind, ·)

/-- Passes over a semicolon, if there is one. -/
def passEnd (ts : List Tree) : List Tree := (pass ";" ts).getD ts

/-- Reads a type; `items` gives the items in its body. Mirrors `build_class`. -/
def readType (items : List Tree → Option (List Item)) (lead : List Trivia) : Reader Item := fun ts => do
  let (kind, rest) ← readTypeKind ts
  let (name, rest) ← take (.kind .word) rest
  let (parts, rest) := readHeaderParts rest.length rest
  let header := headerOf lead kind (nameOf name) parts
  match rest with
  | .group .curly _ body _ :: rest => do
    let inner ← items body
    some (.type header inner, passEnd rest)
  | _ => do
    let rest ← pass ";" rest
    some (.type header [], rest)

/-- The names of the values of an enumeration. A value that depends on a condition does not count.
Mirrors the loop of `build_enum`. -/
def enumerationMembers (body : List Tree) : Option (List String) :=
  let value := .seq attributes Rules.enumerationValue
  let item := .choice (.conditional (.opt value)) value
  if language.takesAll (.commasEnd item) body then
    some ((itemsIn item body).filterMap fun trees => do
      let rest ← language.rest? attributes trees
      let (name, _) ← take (.kind .word) rest
      some (nameOf name))
  else none

/-- Reads an enumeration. Mirrors `build_enum`. -/
def readEnumeration (lead : List Trivia) : Reader Item := fun ts => do
  let rest ← pass "enum" ts
  let (name, rest) ← take (.kind .word) rest
  let (_, rest) ← take (.opt Rules.bases) rest
  match rest with
  | .group .curly _ body _ :: rest => do
    let members ← enumerationMembers body
    some (.enumeration ⟨lead, nameOf name, members⟩, passEnd rest)
  | _ => do
    let rest ← pass ";" rest
    some (.enumeration ⟨lead, nameOf name, []⟩, rest)

/-! ## Members -/

/-- Reads a property after its attributes and modifiers. Mirrors `build_property_member`. -/
def readProperty (lead : List Trivia) (attributes : List Attribute) (modifiers : List String) :
    Reader Item := fun ts => do
  let (type, rest) ← take Rules.type ts
  let (qualifier, rest) ← take (.opt Rules.interfaceQualifier) rest
  let (name, rest) ← take (.kind .word) rest
  let (_, rest) ← take Rules.propertyBody rest
  some (.property ⟨lead, attributes, modifiers, !qualifier.isEmpty, typeOf type, nameOf name⟩, rest)

/-- Reads something that is checked and not kept. -/
def readOther (rule : Rule Part) : Reader Item := fun ts =>
  (language.rest? rule ts).map (.other, ·)

/-! ## Items -/

/-- Where an item stands. -/
inductive Place where
  /-- In no braces. -/
  | file
  /-- In the braces of a namespace or a type. -/
  | body
  deriving DecidableEq, Repr

/-- Reads a namespace. Only in no braces, it may go on to the end of the source.
Mirrors the first two branches of `visit_container`. -/
def readNamespace (items : List Tree → Option (List Item)) (place : Place) : Reader Item := fun ts => do
  let rest ← pass "namespace" ts
  let (name, rest) ← take Rules.qualifiedName rest
  let name := String.ofList (Text.trim (Tree.textOf name).toList)
  match rest with
  | .group .curly _ body _ :: rest => do
    let inner ← items body
    some (.namespaceBlock name inner, passEnd rest)
  | _ => do
    let rest ← pass ";" rest
    if place = .file then some (.namespaceLine name, rest) else none

/-- Reads an item that attributes and modifiers may precede. -/
def readDeclaration (items : List Tree → Option (List Item)) (place : Place) : Reader Item := fun ts => do
  let lead := leadOf ts
  let (attributes, rest) ← readAttributes ts
  let (modifiers, rest) ← take (.many modifier) rest
  if (pass "record" rest).isSome then readType items lead rest
  else
    readType items lead rest <|> readEnumeration lead rest <|>
      match place with
      | .file => readOther Rules.delegateDeclaration rest <|> readOther (.part .statement) ts
      | .body =>
        readProperty lead attributes (modifiers.map (Tree.textOf [·])) rest <|>
          readOther Rules.plainMember rest

/-- Whether a condition only holds attributes of what follows. -/
def holdsAttributes (branches : List (Token × List Tree)) : Bool :=
  branches.any (!·.2.isEmpty) &&
    branches.all fun (_, body) => language.takesAll (.opt Rules.attributeList) body

/-- Reads an item; `items` gives the items inside of it and `branch` those in a branch of a condition. -/
def readItem (items branch : List Tree → Option (List Item)) (place : Place) : Reader Item := fun ts =>
  match ts with
  | .conditional branches _ :: rest =>
    if holdsAttributes branches then readDeclaration items place ts
    else if branches.all fun (_, body) => (branch body).isSome then some (.other, rest)
    else none
  | _ =>
    let early :=
      match place with
      | .file => .oneOf [Rules.globalAttributes, Rules.externAlias, Rules.usingDirective]
      | .body => Rules.usingDirective
    readOther early ts <|> readNamespace items place ts <|> readDeclaration items place ts

/-- Reads items to the end of some trees; there are at most as many as the number says. -/
def readItems (item : Reader Item) : Nat → List Tree → Option (List Item)
  | _, [] => some []
  | 0, _ :: _ => none
  | n + 1, ts => do
    let (first, rest) ← item ts
    let others ← readItems item n rest
    some (first :: others)

/-- The items that some trees are, when items are nested less deep than the number says. -/
def itemsAt : Nat → Place → List Tree → Option (List Item)
  | 0, _, _ => none
  | depth + 1, place, ts =>
    readItems (readItem (itemsAt depth .body) (itemsAt depth place) place) ts.length ts

/-- The items that some trees are. They cannot be nested deeper than there are tokens. -/
def itemsOfTrees? (ts : List Tree) : Option (List Item) := itemsAt (Tree.size ts + 1) .file ts

/-- The items of a source; none if the source breaks a rule of the language. -/
def items? (source : List Char) : Option (List Item) := (Tree.ofSource? source).bind itemsOfTrees?

end TypeBridge.Source
