import TypeBridge.TypeExpr.Reader

/-!
# Places in type expressions

Between two tokens of a type expression, what may come next depends on the brackets that are still open and on what
stands directly before, and on nothing else. That is a *place*. A token leads from one place to another one, or to none
when it cannot stand there.

Results:
* `run_append`: the place after some tokens and further ones.
* `run_finish`: from every place on, some tokens lead to the end of a type outside of all brackets.
-/
namespace TypeBridge.TypeExpr

/-- The brackets between which types stand. -/
inductive Enclosure where
  | parentheses
  | arguments
  deriving DecidableEq, Repr

/-- The token that closes a pair of brackets. -/
def Enclosure.close : Enclosure → Token
  | .parentheses => .closeParen
  | .arguments => .greater

/-- A place between two tokens, with the brackets that are open there, the innermost first. -/
inductive Place where
  /-- Where a type has to begin. -/
  | type (around : List Enclosure)
  /-- Where a name has to go on with an identifier. -/
  | part (around : List Enclosure)
  /-- After `global` at the beginning of a type. -/
  | global (around : List Enclosure)
  /-- After an identifier of a name. -/
  | name (around : List Enclosure)
  /-- After a type with which no name ends. -/
  | suffix (around : List Enclosure)
  /-- Between the brackets of an array. -/
  | rank (around : List Enclosure)
  /-- After a label; the parentheses of its tuple are not listed. -/
  | label (around : List Enclosure)
  deriving DecidableEq, Repr

namespace Place

/-! ## Tokens -/

/-- The place after a token that follows an item between brackets. -/
def afterItem : List Enclosure → Token → Option Place
  | [], _ => none
  | bracket :: around, t =>
    if t = .comma then some (.type (bracket :: around))
    else if t = bracket.close then some (.suffix around)
    else none

/-- The place after a token that follows a type with all of its suffixes. -/
def afterType : List Enclosure → Token → Option Place
  | .parentheses :: around, .name _ => some (.label around)
  | around, t => afterItem around t

/-- The place after a token that follows a type which suffixes may follow. -/
def afterPrimary (around : List Enclosure) : Token → Option Place
  | .question => some (.suffix around)
  | .openBracket => some (.rank around)
  | t => afterType around t

/-- The place after a token that follows all identifiers of a name. -/
def afterName (around : List Enclosure) : Token → Option Place
  | .less => some (.type (.arguments :: around))
  | t => afterPrimary around t

/-- The place after a token that follows an identifier of a name. -/
def afterPart (around : List Enclosure) : Token → Option Place
  | .dot => some (.part around)
  | t => afterName around t

/-- The place after a token. -/
def step : Place → Token → Option Place
  | .type around, .openParen => some (.type (.parentheses :: around))
  | .type around, .name text => some (if text = "global" then .global around else .name around)
  | .part around, .name _ => some (.name around)
  | .global around, .alias => some (.part around)
  | .global around, t => afterPart around t
  | .name around, t => afterPart around t
  | .suffix around, t => afterPrimary around t
  | .rank around, .comma => some (.rank around)
  | .rank around, .closeBracket => some (.suffix around)
  | .label around, t => afterItem (.parentheses :: around) t
  | _, _ => none

/-- The place after some tokens. -/
def run : Place → List Token → Option Place
  | place, [] => some place
  | place, t :: ts => (place.step t).bind (run · ts)

theorem run_append (place : Place) (a b : List Token) : place.run (a ++ b) = (place.run a).bind (·.run b) := by
  induction a generalizing place with
  | nil => rfl
  | cons t a ih =>
    rw [List.cons_append, run, run]
    cases place.step t with
    | none => rfl
    | some next => exact ih next

/-! ## Ends of types -/

/-- What it means that a type may end at a place. -/
inductive Ends (around : List Enclosure) : Place → Prop
  | global : Ends around (.global around)
  | name : Ends around (.name around)
  | suffix : Ends around (.suffix around)

theorem Ends.not_nil {bracket : Enclosure} {around : List Enclosure} {place : Place}
    (h : Ends (bracket :: around) place) : ¬ Ends [] place := by
  cases h <;> nofun

/-- The tokens that close all brackets. -/
def closings (around : List Enclosure) : List Token := around.map Enclosure.close

/-- Tokens with which a type can be finished. -/
def finish : Place → List Token
  | .type around => .name "T" :: closings around
  | .part around => .name "T" :: closings around
  | .global around => closings around
  | .name around => closings around
  | .suffix around => closings around
  | .rank around => .closeBracket :: closings around
  | .label around => .closeParen :: closings around

theorem Ends.step_close {bracket : Enclosure} {around : List Enclosure} {place : Place}
    (h : Ends (bracket :: around) place) : place.step bracket.close = some (.suffix around) := by
  cases h <;> cases bracket <;> rfl

theorem Ends.run_closings {around : List Enclosure} {place : Place} (h : Ends around place) :
    ∃ last, place.run (closings around) = some last ∧ Ends [] last := by
  induction around generalizing place with
  | nil => exact ⟨place, rfl, h⟩
  | cons bracket around ih =>
    rw [closings, List.map_cons, run, h.step_close]
    exact ih .suffix

theorem run_finish (place : Place) : ∃ last, place.run place.finish = some last ∧ Ends [] last := by
  cases place with
  | type around => exact Ends.name.run_closings
  | part around => exact Ends.name.run_closings
  | global around => exact Ends.global.run_closings
  | name around => exact Ends.name.run_closings
  | suffix around => exact Ends.suffix.run_closings
  | rank around => exact Ends.suffix.run_closings
  | label around => exact Ends.suffix.run_closings

end Place

end TypeBridge.TypeExpr
