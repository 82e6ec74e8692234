import TypeBridge.Declaration.Basic
import Mathlib.Data.List.Perm.Basic

/-!
# Where types stand

The types among some declarations, those inside of other types included. A place says how to get to a type:
the number of a type among the outermost ones, then the number of one inside of it, and so on. The order of
places as lists is the order of a walk in which an outer type goes before those inside of it.

Results:
* `mem_placesAll`, `pairwise_placesAll`: the places of types, in order and each of them once.
* `isPreorder_placedAll`: the types that are listed are those at all places.
-/
namespace TypeBridge

/-- A type, and the names of the types around it, the innermost first. -/
structure PlacedType where
  owners : List String
  type : TypeDeclaration

namespace TypeDeclaration

/-- To prove something of all types, it may be assumed of the types inside of a type. -/
@[elab_as_elim]
theorem induction {motive : TypeDeclaration → Prop}
    (step : ∀ type : TypeDeclaration, (∀ inner ∈ type.nested, motive inner) → motive type)
    (type : TypeDeclaration) : motive type :=
  TypeDeclaration.rec (motive_2 := fun types => ∀ inner ∈ types, motive inner)
    (fun name space kind parameters members comments nested ih =>
      step ⟨name, space, kind, parameters, members, comments, nested⟩ ih)
    (fun _ h => absurd h List.not_mem_nil)
    (fun _ _ first rest => List.forall_mem_cons.2 ⟨first, rest⟩) type

/-! ## Listing -/

mutual
/-- A type and the types inside of it, an outer one before those inside of it. -/
def placed (owners : List String) : TypeDeclaration → List PlacedType
  | ⟨name, space, kind, parameters, members, comments, nested⟩ =>
    ⟨owners, ⟨name, space, kind, parameters, members, comments, nested⟩⟩ ::
      placedAll (name :: owners) nested

/-- Some types with the same owners, and the types inside of them. -/
def placedAll (owners : List String) : List TypeDeclaration → List PlacedType
  | [] => []
  | type :: types => placed owners type ++ placedAll owners types
end

theorem placedAll_eq_flatMap (owners : List String) (types : List TypeDeclaration) :
    placedAll owners types = types.flatMap (placed owners) := by
  induction types with
  | nil => rfl
  | cons type types ih => rw [placedAll, ih, List.flatMap_cons]

theorem placedAll_append (owners : List String) (types others : List TypeDeclaration) :
    placedAll owners (types ++ others) = placedAll owners types ++ placedAll owners others := by
  rw [placedAll_eq_flatMap, List.flatMap_append, ← placedAll_eq_flatMap, ← placedAll_eq_flatMap]

theorem placed_eq (owners : List String) (type : TypeDeclaration) :
    placed owners type = ⟨owners, type⟩ :: placedAll (type.name :: owners) type.nested := by
  cases type
  rw [placed]

/-! ## Places -/

/-- The type at a place among some types with the same owners. -/
def at? (owners : List String) (types : List TypeDeclaration) : List Nat → Option PlacedType
  | [] => none
  | [i] => types[i]?.map (⟨owners, ·⟩)
  | i :: j :: place => types[i]?.bind fun type => at? (type.name :: owners) type.nested (j :: place)

mutual
/-- The places of a type and of those inside of it, as they go on from the type itself. -/
def places : TypeDeclaration → List (List Nat)
  | ⟨_, _, _, _, _, _, nested⟩ => [] :: placesAll 0 nested

/-- The places of some types and of those inside of them, when the first one has the given number. -/
def placesAll (first : Nat) : List TypeDeclaration → List (List Nat)
  | [] => []
  | type :: types => (places type).map (first :: ·) ++ placesAll (first + 1) types
end

theorem places_eq (type : TypeDeclaration) : places type = [] :: placesAll 0 type.nested := by
  cases type
  rw [places]

theorem le_of_mem_placesAll {types : List TypeDeclaration} {first : Nat} {place : List Nat}
    (h : place ∈ placesAll first types) : ∃ i rest, place = i :: rest ∧ first ≤ i := by
  induction types generalizing first with
  | nil => cases h
  | cons type types ih =>
    rw [placesAll, List.mem_append, List.mem_map] at h
    rcases h with ⟨rest, -, rfl⟩ | h
    · exact ⟨first, rest, rfl, Nat.le_refl first⟩
    · obtain ⟨i, rest, rfl, hle⟩ := ih h
      exact ⟨i, rest, rfl, by omega⟩

theorem pairwise_placesAll_of {types : List TypeDeclaration}
    (h : ∀ type ∈ types, (places type).Pairwise (· < ·)) (first : Nat) :
    (placesAll first types).Pairwise (· < ·) := by
  induction types generalizing first with
  | nil => exact .nil
  | cons type types ih =>
    rw [placesAll, List.pairwise_append]
    refine ⟨?_, ih (fun t ht => h t (List.mem_cons_of_mem _ ht)) (first + 1), ?_⟩
    · rw [List.pairwise_map]
      refine (h type List.mem_cons_self).imp fun hlt => ?_
      exact List.cons_lt_cons_iff.2 (.inr ⟨rfl, hlt⟩)
    · intro place hplace later hlater
      obtain ⟨rest, -, rfl⟩ := List.mem_map.1 hplace
      obtain ⟨i, more, rfl, hle⟩ := le_of_mem_placesAll hlater
      exact List.cons_lt_cons_iff.2 (.inl (by omega))

theorem pairwise_places (type : TypeDeclaration) : (places type).Pairwise (· < ·) := by
  induction type using induction with
  | step type ih =>
    rw [places_eq, List.pairwise_cons]
    refine ⟨fun place hplace => ?_, pairwise_placesAll_of ih 0⟩
    obtain ⟨i, rest, rfl, -⟩ := le_of_mem_placesAll hplace
    exact List.nil_lt_cons i rest

/-- The places of types are in order, and each of them is there once. -/
theorem pairwise_placesAll (first : Nat) (types : List TypeDeclaration) :
    (placesAll first types).Pairwise (· < ·) :=
  pairwise_placesAll_of (fun type _ => pairwise_places type) first

theorem cons_mem_placesAll {types : List TypeDeclaration} {first i : Nat} {rest : List Nat} :
    i :: rest ∈ placesAll first types ↔
      ∃ type, first ≤ i ∧ types[i - first]? = some type ∧ rest ∈ places type := by
  induction types generalizing first with
  | nil => simp [placesAll]
  | cons type types ih =>
    rw [placesAll, List.mem_append, List.mem_map, ih]
    constructor
    · rintro (⟨rest, hrest, heq⟩ | ⟨found, hle, hfound, hrest⟩)
      · obtain ⟨rfl, rfl⟩ := List.cons.inj heq
        exact ⟨type, Nat.le_refl first, by simp, hrest⟩
      · have hsub : i - first = (i - (first + 1)) + 1 := by omega
        exact ⟨found, by omega, by rw [hsub, List.getElem?_cons_succ, hfound], hrest⟩
    · rintro ⟨found, hle, hfound, hrest⟩
      by_cases heq : i = first
      · subst heq
        rw [Nat.sub_self, List.getElem?_cons_zero] at hfound
        obtain rfl := Option.some.inj hfound
        exact .inl ⟨rest, hrest, rfl⟩
      · have hsub : i - first = (i - (first + 1)) + 1 := by omega
        rw [hsub, List.getElem?_cons_succ] at hfound
        exact .inr ⟨found, by omega, hfound, hrest⟩

/-- The places of types are those where a type is found. -/
theorem mem_placesAll (owners : List String) (types : List TypeDeclaration) (place : List Nat) :
    place ∈ placesAll 0 types ↔ (at? owners types place).isSome := by
  induction place generalizing owners types with
  | nil =>
    simp only [at?, Option.isSome_none, Bool.false_eq_true, iff_false]
    intro h
    obtain ⟨i, rest, heq, -⟩ := le_of_mem_placesAll h
    cases heq
  | cons i rest ih =>
    rw [cons_mem_placesAll, Nat.sub_zero]
    cases rest with
    | nil => simp [at?, places_eq, Option.isSome_iff_exists]
    | cons j rest =>
      rw [at?]
      cases types[i]? with
      | none => simp
      | some type => simp [places_eq, ih (type.name :: owners) type.nested]

/-! ## Types at places -/

theorem map_placedAll_of {owners : List String} {types : List TypeDeclaration}
    (h : ∀ type ∈ types, ∀ owners, (placed owners type).map some =
      some ⟨owners, type⟩ :: (placesAll 0 type.nested).map (at? (type.name :: owners) type.nested))
    (before : List TypeDeclaration) :
    (placedAll owners types).map some =
      (placesAll before.length types).map (at? owners (before ++ types)) := by
  induction types generalizing before with
  | nil => rfl
  | cons type types ih =>
    have hrest := ih (fun t ht => h t (List.mem_cons_of_mem _ ht)) (before ++ [type])
    rw [List.length_append, List.length_singleton, List.append_assoc, List.singleton_append] at hrest
    have hfirst : (before ++ type :: types)[before.length]? = some type := by simp
    rw [placedAll, placesAll, List.map_append, List.map_append, hrest, h type List.mem_cons_self,
      places_eq, List.map_map, List.map_cons]
    congr 1
    refine congrArg₂ List.cons (by simp [at?]) (List.map_congr_left fun place hplace => ?_)
    obtain ⟨i, rest, rfl, -⟩ := le_of_mem_placesAll hplace
    simp [at?]

theorem map_placed (owners : List String) (type : TypeDeclaration) :
    (placed owners type).map some =
      some ⟨owners, type⟩ :: (placesAll 0 type.nested).map (at? (type.name :: owners) type.nested) := by
  induction type using induction generalizing owners with
  | step type ih =>
    rw [placed_eq, List.map_cons]
    exact congrArg _ (map_placedAll_of (fun inner h owners => ih inner h owners) [])

/-- The types that are listed are those at the places, in their order. -/
theorem map_placedAll (owners : List String) (types : List TypeDeclaration) :
    (placedAll owners types).map some = (placesAll 0 types).map (at? owners types) :=
  map_placedAll_of (fun type _ owners => map_placed owners type) []

/-- What it means that a list has all types among some declarations, each of them once and an outer one
before those inside of it. -/
def IsPreorder (types : List TypeDeclaration) (list : List PlacedType) : Prop :=
  ∃ places : List (List Nat), places.Pairwise (· < ·) ∧
    (∀ place, place ∈ places ↔ (at? [] types place).isSome) ∧
    list.map some = places.map (at? [] types)

theorem isPreorder_placedAll (types : List TypeDeclaration) : IsPreorder types (placedAll [] types) :=
  ⟨placesAll 0 types, pairwise_placesAll 0 types, mem_placesAll [] types, map_placedAll [] types⟩

end TypeDeclaration

end TypeBridge
