import TypeBridge.Declaration.Set
import TypeBridge.Output.Declaration

/-!
# Declaration files

A declaration file consists of sections: a banner, the interfaces of the generic types that keep their
names, and the namespaces with their declarations.
-/
namespace TypeBridge.Output

/-! ## Namespaces -/

/-- The indentation of a level. -/
def indentation (options : Options) (level : Nat) : String :=
  String.join (List.replicate level options.indentUnit)

/-- The lines that open namespaces inside of each other, the outermost on the given level. -/
def openings (options : Options) (level : Nat) : List String → List String
  | [] => []
  | segment :: segments =>
    let word := if level = 0 then "declare namespace " else "export namespace "
    (indentation options level ++ word ++ segment ++ " \x7b") :: openings options (level + 1) segments

/-- The lines that close the namespaces on levels below the given one. -/
def closings (options : Options) : Nat → List String
  | 0 => []
  | level + 1 => (indentation options level ++ "\x7d") :: closings options level

/-- The lines of some blocks, with an empty line between each two. -/
def separated (blocks : List (List String)) : List String := [""].intercalate blocks

/-- The blocks for the declarations of a namespace. -/
def blocks (translator : Translator) (group : NamespaceGroup) : List (List String) :=
  let indent := indentation translator.options group.segments.length
  group.enumerations.map (enumeration translator.options indent) ++
    interfacesAll translator group.name indent [] group.types

/-- The lines of a namespace. Mirrors `emit_namespace_group_lines`. -/
def namespaceLines (translator : Translator) (group : NamespaceGroup) : List String :=
  let options := translator.options
  openings options 0 group.segments ++ separated (blocks translator group) ++
    closings options group.segments.length

/-! ## Sections -/

/-- The sections of a declaration file. Mirrors the section emitters. -/
inductive Section where
  | banner
  | passthrough
  | namespaces
  deriving DecidableEq, Repr

/-- The sections that a declaration file usually has. Mirrors `create_default_registry`. -/
def usualSections : List Section := [.banner, .passthrough, .namespaces]

/-- The lines of a section.
Mirrors `emit_banner_section`, `emit_passthrough_interfaces_section` and `emit_namespace_groups_section`. -/
def Section.lines (translator : Translator) (set : DeclarationSet) : Section → List String
  | .banner => translator.options.bannerLines ++ [""]
  | .passthrough =>
    let names := translator.options.passthroughGenerics
    names.map (fun name => "interface " ++ name ++ "<T> extends Array<T> \x7b\x7d") ++
      (if names.isEmpty then [] else [""])
  | .namespaces => set.groups.flatMap fun group => namespaceLines translator group ++ [""]

/-- The translator for the types of some declarations. Mirrors `build_emitter_state`. -/
def translator (options : Options) (set : DeclarationSet) : Translator :=
  { options := options, registry := set.registry }

/-- The text of a declaration file with the given sections. Mirrors `render_typescript`. -/
def render (options : Options) (sections : List Section) (set : DeclarationSet) : String :=
  let lines := sections.flatMap (Section.lines (translator options set) set)
  .ofList (Text.trimEnd ("\n".intercalate lines).toList ++ ['\n'])

end TypeBridge.Output
