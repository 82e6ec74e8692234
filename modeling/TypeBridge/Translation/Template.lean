import TypeBridge.Options
import TypeBridge.Text.Substitute

/-!
# Filling templates

A template for `n` parameters is filled with `n` texts. First the placeholder `T` takes the first text,
then `T1`, …, `Tn` take the texts by position, then each parameter takes the text at its own position;
each is replaced in what the earlier replacements left.
-/
namespace TypeBridge.Template

/-- A name between braces. -/
def placeholder (name : String) : List Char := '\x7b' :: name.toList ++ ['\x7d']

/-- The replacements that a template makes, in order. -/
def replacements (template : Template) (arguments : List String) : List (String × String) :=
  ("T", arguments.headD "") ::
    arguments.zipIdx.map (fun (argument, i) => ("T" ++ toString (i + 1), argument)) ++
    template.parameters.zip arguments

/-- The text of a template filled with as many texts as it has parameters, of which there is one.
Mirrors the first branch of `translate_generic`. -/
def fill (template : Template) (arguments : List String) : String :=
  .ofList <| (template.replacements arguments).foldl
    (fun text (name, argument) => Text.replace (placeholder name) argument.toList text)
    template.text.toList

end TypeBridge.Template
