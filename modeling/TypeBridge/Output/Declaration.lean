import TypeBridge.Declaration.Basic
import TypeBridge.Output.Comment
import TypeBridge.Text.Lowercase
import TypeBridge.Translation.Basic

/-!
# Declarations in declaration files

An enumeration is written as the union of the names of its values and as an enumeration of them. A type is
written as an interface with a property for each member. Types inside of a type follow it on the same
level, an outer one before those inside of it.
-/
namespace TypeBridge.Output

/-! ## Enumerations -/

/-- The lines of an enumeration. Mirrors `emit_enum_lines`. -/
def enumeration (options : Options) (indent : String) (declaration : Enumeration) : List String :=
  let members := declaration.members
  let union :=
    if members.isEmpty then "never"
    else " | ".intercalate (members.map fun name => "'" ++ name ++ "'")
  let body := if members.isEmpty then "\x7b\x7d" else "\x7b " ++ ", ".intercalate members ++ " \x7d"
  commentUnlessEmpty indent (documentation options declaration.comments) ++ [
    indent ++ "export type " ++ declaration.name ++ " = " ++ union ++ ";",
    indent ++ "export enum " ++ declaration.name ++ options.enumSuffix ++ " " ++ body]

/-! ## Members -/

/-- The name of the property for a member: that of the member, but it begins with a small letter.
Mirrors `to_camel_case`. -/
def propertyName (name : String) : String := .ofList (Text.lowerFirst name.toList)

/-- The line that marks a member as deprecated, if it is. -/
def deprecation (options : Options) (member : Member) : List String :=
  match member.attribute? options.obsoleteAttributes with
  | none => []
  | some applied =>
    [.ofList (Text.trimEnd ("@deprecated " ++ applied.arguments.headD "").toList)]

/-- Whether a member may be absent, and the text of its type. -/
def memberType (translator : Translator) (scope : Scope) (member : Member) : Bool × String :=
  let (text, isOptional) := TypeText.splitOptional (translator.translate scope member.type)
  (isOptional || (member.attribute? translator.options.allowAbsentAttributes).isSome, text)

/-- The lines of the property for a member. Mirrors `emit_member_lines`. -/
def property (translator : Translator) (scope : Scope) (indent : String) (member : Member) : List String :=
  let options := translator.options
  let (isOptional, type) := memberType translator scope member
  commentUnlessEmpty indent (deprecation options member ++ documentation options member.comments) ++
    [indent ++ propertyName member.name ++ (if isOptional then "?" else "") ++ ": " ++ type ++ ";"]

/-! ## Types -/

/-- The lines of the interface for a type, without the types inside of it.
Mirrors `emit_class_interface_lines`. -/
def interface (translator : Translator) (scope : Scope) (indent : String) (type : TypeDeclaration) :
    List String :=
  let options := translator.options
  let parameters :=
    if type.parameters.isEmpty then "" else "<" ++ ", ".intercalate type.parameters ++ ">"
  commentUnlessEmpty indent (documentation options type.comments) ++
    (indent ++ "export interface " ++ type.name ++ parameters ++ " \x7b") ::
    type.members.flatMap (property translator scope (indent ++ options.indentUnit)) ++
    [indent ++ "\x7d"]

mutual
/-- The interfaces for a type and for the types inside of it; `enclosing` are the types around it, the
innermost first.
Mirrors `emit_class_interface_lines` and `emit_nested_declaration_blocks`. -/
def interfaces (translator : Translator) (namespaceName : String) (indent : String)
    (enclosing : List String) : TypeDeclaration → List (List String)
  | ⟨name, space, kind, parameters, members, comments, nested⟩ =>
    let scope := {
      declaringType := some name
      declaringNamespace := some namespaceName
      enclosingTypes := enclosing }
    interface translator scope indent ⟨name, space, kind, parameters, members, comments, nested⟩ ::
      interfacesAll translator namespaceName indent (name :: enclosing) nested

/-- The interfaces for some types that are declared at the same place. -/
def interfacesAll (translator : Translator) (namespaceName : String) (indent : String)
    (enclosing : List String) : List TypeDeclaration → List (List String)
  | [] => []
  | type :: types =>
    interfaces translator namespaceName indent enclosing type ++
      interfacesAll translator namespaceName indent enclosing types
end

end TypeBridge.Output
