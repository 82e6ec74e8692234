import TypeBridge.Proofs.Declaration.Placement
import TypeBridge.Proofs.Source.Site
import TypeBridge.Proofs.Source.Written

/-!
# What sources declare

The declarations of a source are what a walk through it meets: its types, with their members and the types directly
inside of them, and its enumerations, in the order of the source and each in its namespace. Of an enumeration inside of
types only the namespace is kept. What is in a namespace that stands in a type is met, but not declared.

Results:
* `collects_declarations`: the declarations of an item in a type, with those in its braces.
* `collects_unitOf`, `collects_sitesOf`: those of an item in a namespace, and of all items of a source.
* `unit_collects`: the declarations of a source, in its order.
-/
namespace TypeBridge

/-- A type without the types inside of it. -/
def TypeDeclaration.alone (type : TypeDeclaration) : TypeDeclaration := { type with nested := [] }

/-- The names of the types around a type, and the type with the types directly inside of it, these without those inside
of them. -/
def PlacedType.shallow (placed : PlacedType) : List String × TypeDeclaration :=
  (placed.owners, { placed.type with nested := placed.type.nested.map TypeDeclaration.alone })

namespace Source

/-! ## Declarations -/

/-- The type that an item declares in a namespace, without the types inside of it. -/
def Item.type? (space : String) : Item → Option TypeDeclaration
  | .type header items => some {
      name := header.name
      namespaceName := space
      kind := header.kind
      parameters := header.typeParameters
      members := header.parameters.map Parameter.member ++ items.filterMap (Item.member? header.kind)
      comments := comments header.lead }
  | _ => none

/-- The enumeration that an item declares in a namespace. -/
def Item.enumeration? (space : String) : Item → Option Enumeration
  | .enumeration declaration => some {
      name := declaration.name
      namespaceName := space
      members := declaration.members
      comments := comments declaration.lead }
  | _ => none

namespace Site

/-- The names of the types around a type, and the type with the types directly inside of it, these without those inside
of them. -/
def type? (usual : String) (site : Site) : Option (List String × TypeDeclaration) :=
  let space := site.scope.namespaceName usual
  (site.node.item.type? space).map fun type =>
    (site.scope.owners, { type with nested := site.node.item.inner.filterMap (Item.type? space) })

def enumeration? (usual : String) (site : Site) : Option Enumeration :=
  site.node.item.enumeration? (site.scope.namespaceName usual)

end Site

/-- What it means that the declarations of a unit are those among some sites that count, and no others. -/
structure Collects (usual : String) (owners : List String) (unit : SourceUnit) (sites : List Site) : Prop where
  types : (TypeDeclaration.placedAll owners unit.types).map PlacedType.shallow =
    (sites.filter (·.scope.counts)).filterMap (Site.type? usual)
  enumerations : unit.enumerations = (sites.filter (·.scope.counts)).filterMap (Site.enumeration? usual)

variable {usual : String} {owners : List String}

theorem collects_nil : Collects usual owners {} [] := ⟨rfl, rfl⟩

theorem Collects.append {first second : SourceUnit} {sites others : List Site}
    (hfirst : Collects usual owners first sites) (hsecond : Collects usual owners second others) :
    Collects usual owners (Source.append first second) (sites ++ others) := by
  refine ⟨?_, ?_⟩
  · rw [List.filter_append, List.filterMap_append, ← hfirst.types, ← hsecond.types, Source.append]
    simp only [TypeDeclaration.placedAll_eq_flatMap, List.flatMap_append, List.map_append]
  · rw [List.filter_append, List.filterMap_append, ← hfirst.enumerations, ← hsecond.enumerations, Source.append]

/-! ## Types -/

theorem map_alone_typesOfAll (space : String) (items : List Item) :
    (typesOfAll space items).map TypeDeclaration.alone = items.filterMap (Item.type? space) := by
  rw [typesOfAll_eq_flatMap, List.map_flatMap, List.filterMap_eq_flatMap_toList]
  refine List.flatMap_congr fun item _ => ?_
  cases item <;> rfl

namespace Scope

/-- Nothing counts any more in a namespace that stands in a type. -/
theorem counts_enter_space {scope : Scope} {header : TypeHeader} (h : .type header ∈ scope.around) (name : String) :
    (scope.enter (.space name)).counts = false := by
  simp only [counts, enter, List.pairwise_cons, decide_eq_false_iff_not, not_and]
  intro hall
  exact absurd (hall _ h rfl) (by simp [Outside.owner?])

theorem counts_enter_type {scope : Scope} (h : scope.counts = true) (header : TypeHeader) :
    (scope.enter (.type header)).counts = true := by
  simp only [counts, enter, List.pairwise_cons, decide_eq_true_eq] at h ⊢
  exact ⟨fun _ _ _ => rfl, h⟩

theorem counts_of_suffix {scope other : Scope} (hsuffix : scope.around <:+ other.around) (h : scope.counts = false) :
    other.counts = false := by
  simp only [counts, decide_eq_false_iff_not] at h ⊢
  exact fun hother => h (hother.sublist hsuffix.sublist)

end Scope

/-- What one item declares, when nothing is said of what is in its braces. -/
theorem collects_plain {scope : Scope} (before : List Token) {item : Item} (trees : List Tree)
    (hcounts : scope.counts = true) (hinner : item.inner = []) :
    Collects usual scope.owners
      ⟨typesOf (scope.namespaceName usual) item, enumerationsOf (scope.namespaceName usual) item⟩
      [⟨scope, before, .plain item trees⟩] := by
  cases item with
  | type header items =>
    obtain rfl : items = [] := hinner
    refine ⟨?_, ?_⟩
    · simp [hcounts, Node.item, Site.type?, Item.type?, Item.inner, typesOf, typesOfAll,
        TypeDeclaration.placedAll, TypeDeclaration.placed, PlacedType.shallow]
    · simp [hcounts, Node.item, Site.enumeration?, Item.enumeration?, enumerationsOf, enumerationsOfAll]
  | namespaceBlock | namespaceLine | enumeration | property | other =>
    refine ⟨?_, ?_⟩
    · simp [hcounts, Node.item, Site.type?, Item.type?, typesOf, TypeDeclaration.placedAll]
    · simp [hcounts, Node.item, Site.enumeration?, Item.enumeration?, enumerationsOf]

/-- A namespace is no declaration. -/
theorem collects_space {site : Site} {name : String} {items : List Item}
    (hitem : site.node.item = .namespaceBlock name items) : Collects usual owners {} [site] := by
  refine ⟨?_, ?_⟩
  · by_cases hcounts : site.scope.counts = true <;>
      simp [hcounts, hitem, Site.type?, Item.type?, TypeDeclaration.placedAll]
  · by_cases hcounts : site.scope.counts = true <;>
      simp [hcounts, hitem, Site.enumeration?, Item.enumeration?]

/-- A type, when it is known what the items in its braces declare. -/
theorem Collects.type {site : Site} {header : TypeHeader} {items : List Item} {sites : List Site}
    (hcounts : site.scope.counts = true) (hitem : site.node.item = .type header items)
    (h : Collects usual (header.name :: site.scope.owners)
      ⟨typesOfAll (site.scope.namespaceName usual) items, enumerationsOfAll (site.scope.namespaceName usual) items⟩
      sites) :
    Collects usual site.scope.owners
      ⟨typesOf (site.scope.namespaceName usual) (.type header items),
        enumerationsOf (site.scope.namespaceName usual) (.type header items)⟩ (site :: sites) := by
  refine ⟨?_, ?_⟩
  · simp only [typesOf, TypeDeclaration.placedAll, TypeDeclaration.placed, List.append_nil, List.map_cons,
      h.types, List.filter_cons, hcounts, if_true, List.filterMap_cons, Site.type?, hitem, Item.type?, Item.inner,
      Option.map_some, PlacedType.shallow, map_alone_typesOfAll]
  · simp only [enumerationsOf, List.filter_cons, hcounts, if_true, List.filterMap_cons, Site.enumeration?, hitem,
      Item.enumeration?]
    exact h.enumerations

/-- Nothing is declared by sites that do not count. -/
theorem collects_uncounted {sites : List Site} (h : ∀ site ∈ sites, site.scope.counts = false) :
    Collects usual owners {} sites := by
  have hnil : sites.filter (·.scope.counts) = [] := by
    rw [List.filter_eq_nil_iff]
    intro site hsite
    simp [h site hsite]
  exact ⟨by rw [hnil]; rfl, by rw [hnil]; rfl⟩

/-- The declarations of items in the braces of a type. -/
theorem collects_declarationsAll {nodes : List Node} {scope : Scope} (before : List Token)
    (hnodes : ∀ node ∈ nodes, node.IsLaidOut .body)
    (h : ∀ node ∈ nodes, ∀ before, Collects usual scope.owners
      ⟨typesOf (scope.namespaceName usual) node.item, enumerationsOf (scope.namespaceName usual) node.item⟩
      (node.sites scope before)) :
    Collects usual scope.owners
      ⟨typesOfAll (scope.namespaceName usual) (Node.items nodes),
        enumerationsOfAll (scope.namespaceName usual) (Node.items nodes)⟩ (Node.sitesAll scope before nodes) := by
  induction nodes generalizing before with
  | nil => exact collects_nil
  | cons node nodes ih =>
    obtain ⟨hnode, hnodes⟩ := List.forall_mem_cons.1 hnodes
    obtain ⟨hfirst, hrest⟩ := List.forall_mem_cons.1 h
    have hafter := ih (before ++ Tree.tokensAll node.trees) hnodes hrest
    rw [Node.sitesAll, Node.after_of_isLaidOut hnode]
    exact (hfirst before).append hafter

/-- The declarations of an item in a type, or of one that is no namespace. -/
theorem collects_declarations {place : Place} {scope : Scope} {node : Node} (before : List Token)
    (hnode : node.IsLaidOut place) (hcounts : scope.counts = true)
    (hspace : ∀ name items, node.item = .namespaceBlock name items → ∃ header, .type header ∈ scope.around) :
    Collects usual scope.owners
      ⟨typesOf (scope.namespaceName usual) node.item, enumerationsOf (scope.namespaceName usual) node.item⟩
      (node.sites scope before) := by
  induction node using Node.induction generalizing place scope before with
  | plain item trees =>
    have hinner : item.inner = [] := by
      cases hnode with
      | line => rfl
      | plain _ hinner _ _ => exact hinner
    exact collects_plain before trees hcounts hinner
  | braced outside head opening inner closing foot ih =>
    have hbody : ∀ node ∈ inner, node.IsLaidOut .body := by
      cases hnode with
      | braced _ _ hbody _ => exact hbody
    let site : Site := ⟨scope, before, .braced outside head opening inner closing foot⟩
    cases outside with
    | type header =>
      have hinner (node : Node) (hmem : node ∈ inner) (before : List Token) :=
        ih node hmem before (hbody node hmem) (Scope.counts_enter_type hcounts header)
          (fun _ _ _ => ⟨header, List.mem_cons_self⟩)
      have hall := collects_declarationsAll (before ++ Tree.tokensAll head ++ [opening]) hbody hinner
      have hsite : site.scope.counts = true := hcounts
      exact hall.type hsite rfl
    | space name =>
      obtain ⟨header, hheader⟩ := hspace name _ rfl
      have hinner : ∀ site ∈
          Node.sitesAll (scope.enter (.space name)) (before ++ Tree.tokensAll head ++ [opening]) inner,
          site.scope.counts = false := by
        intro site hsite
        obtain ⟨_, node, _, line, -, hmem⟩ := Node.exists_of_mem_sitesAll hsite
        exact Scope.counts_of_suffix (Node.around_suffix hmem) (Scope.counts_enter_space hheader name)
      have hsite : site.node.item = .namespaceBlock name (Node.items inner) := rfl
      exact (collects_space hsite).append (collects_uncounted hinner)

/-! ## Namespaces -/

namespace Scope

theorem path_enter_space (scope : Scope) (name : String) :
    (scope.enter (.space name)).path = some (qualify scope.path name) := by
  have hspaces : (scope.enter (.space name)).spaces = scope.spaces ++ [name] := by
    simp [spaces, enter, Outside.space?]
  unfold path
  rw [hspaces, if_neg (by simp)]
  by_cases h : scope.spaces = []
  · simp [h, qualify]
  · rw [if_neg h, qualify, String.intercalate_append_of_ne_nil h (by simp), String.intercalate_singleton]

theorem counts_of_no_type {scope : Scope} (h : ∀ header, .type header ∉ scope.around) : scope.counts = true := by
  simp only [counts, decide_eq_true_eq]
  refine List.pairwise_of_forall_mem_list fun _ _ outer houter hsome => ?_
  cases outer with
  | type header => exact absurd houter (h header)
  | space name => cases hsome

theorem not_mem_enter_space {scope : Scope} (h : ∀ header, .type header ∉ scope.around) (name : String) :
    ∀ header, .type header ∉ (scope.enter (.space name)).around := by
  intro header hmem
  rcases List.mem_cons.1 hmem with heq | hmem
  · cases heq
  · exact h header hmem

end Scope

theorem unitOfAll_cons {item : Item} (h : ∀ name, item ≠ .namespaceLine name) (outer current : Option String)
    (items : List Item) : unitOfAll usual outer current (item :: items) =
      Source.append (unitOf usual outer current item) (unitOfAll usual outer current items) := by
  cases item with
  | namespaceLine name => exact absurd rfl (h name)
  | namespaceBlock | type | enumeration | property | other => rfl

theorem unitOf_eq {item : Item} (h : ∀ name items, item ≠ .namespaceBlock name items) (outer current : Option String) :
    unitOf usual outer current item =
      ⟨typesOf (current.getD usual) item, enumerationsOf (current.getD usual) item⟩ := by
  cases item with
  | namespaceBlock name items => exact absurd rfl (h name items)
  | namespaceLine | type | enumeration | property | other => rfl

/-- The declarations of items in no type. -/
theorem collects_unitOfAll_of {place : Place} {nodes : List Node} {scope : Scope} (before : List Token)
    (hplace : place = .file → scope.around = []) (hnodes : ∀ node ∈ nodes, node.IsLaidOut place)
    (h : ∀ node ∈ nodes, ∀ line before,
      Collects usual scope.owners (unitOf usual scope.path (scope.path.or line) node.item)
        (node.sites { scope with line := line } before)) :
    Collects usual scope.owners (unitOfAll usual scope.path (scope.path.or scope.line) (Node.items nodes))
      (Node.sitesAll scope before nodes) := by
  induction nodes generalizing scope before with
  | nil => exact collects_nil
  | cons node nodes ih =>
    obtain ⟨hnode, hnodes⟩ := List.forall_mem_cons.1 hnodes
    obtain ⟨hfirst, hrest⟩ := List.forall_mem_cons.1 h
    by_cases hline : ∃ name, node.item = .namespaceLine name
    · -- A line stands in no braces, so the namespace that it names is not inside of another one.
      obtain ⟨name, hname⟩ := hline
      have hpath : scope.path = none := by
        cases hnode with
        | line => simp [Scope.path, Scope.spaces, hplace rfl]
        | plain _ _ hnot _ => exact absurd hname (hnot name)
        | @braced _ outside => cases outside <;> cases hname
      let next : Scope := { scope with line := some name }
      have hafter : scope.after node = next := by simp [Scope.after, hname, next]
      have hall : Collects usual next.owners (unitOfAll usual next.path (next.path.or next.line) (Node.items nodes))
          (Node.sitesAll next (before ++ Tree.tokensAll node.trees) nodes) := ih _ hplace hnodes hrest
      have hcurrent : next.path.or next.line = some (qualify scope.path name) := by
        change scope.path.or (some name) = _
        rw [hpath]
        rfl
      have hunit : unitOfAll usual scope.path (scope.path.or scope.line) (node.item :: Node.items nodes) =
          Source.append (unitOf usual scope.path (scope.path.or scope.line) node.item)
            (unitOfAll usual scope.path (next.path.or next.line) (Node.items nodes)) := by
        rw [hname, hcurrent]
        rfl
      rw [Node.items, hunit, Node.sitesAll, hafter]
      exact (hfirst scope.line before).append hall
    · have hnot : ∀ name, node.item ≠ .namespaceLine name := fun name heq => hline ⟨name, heq⟩
      have hall := ih (before ++ Tree.tokensAll node.trees) hplace hnodes hrest
      have hafter : scope.after node = scope := by
        unfold Scope.after
        split
        · exact absurd ‹_› (hnot _)
        · rfl
      rw [Node.items, unitOfAll_cons hnot, Node.sitesAll, hafter]
      exact (hfirst scope.line before).append hall

/-- The declarations of an item in no type. -/
theorem collects_unitOf {place : Place} {scope : Scope} {node : Node} (before : List Token)
    (hnode : node.IsLaidOut place) (hnone : ∀ header, .type header ∉ scope.around) :
    Collects usual scope.owners (unitOf usual scope.path (scope.path.or scope.line) node.item)
      (node.sites scope before) := by
  induction node using Node.induction generalizing place scope before with
  | plain item trees =>
    by_cases hspace : ∃ name items, item = .namespaceBlock name items
    · obtain ⟨name, items, rfl⟩ := hspace
      have hinner : items = [] := by
        cases hnode with
        | plain _ hinner _ _ => exact hinner
      subst hinner
      have hitem : (Item.namespaceBlock name []).inner = [] := rfl
      exact collects_plain before trees (Scope.counts_of_no_type hnone) hitem
    · have hnot : ∀ name items, (Node.plain item trees).item ≠ .namespaceBlock name items :=
        fun name items heq => hspace ⟨name, items, heq⟩
      rw [unitOf_eq hnot]
      exact collects_declarations before hnode (Scope.counts_of_no_type hnone)
        fun name items heq => absurd heq (hnot name items)
  | braced outside head opening inner closing foot ih =>
    cases outside with
    | type header =>
      have hnot (name : String) (items : List Item) :
          (Node.braced (.type header) head opening inner closing foot).item ≠ .namespaceBlock name items := nofun
      rw [unitOf_eq hnot]
      exact collects_declarations before hnode (Scope.counts_of_no_type hnone)
        fun name items heq => absurd heq (hnot name items)
    | space name =>
      have hbody : ∀ node ∈ inner, node.IsLaidOut .body := by
        cases hnode with
        | braced _ _ hbody _ => exact hbody
      let next := scope.enter (.space name)
      have hnext := Scope.not_mem_enter_space hnone name
      have hinner : Collects usual next.owners
          (unitOfAll usual next.path (next.path.or next.line) (Node.items inner))
          (Node.sitesAll next (before ++ Tree.tokensAll head ++ [opening]) inner) := by
        have hplace : Place.body = .file → next.around = [] := nofun
        refine collects_unitOfAll_of _ hplace hbody fun node hmem line before => ?_
        have hnode : ∀ header, .type header ∉ ({ next with line := line } : Scope).around := hnext
        exact ih node hmem before (hbody node hmem) hnode
      let site : Site := ⟨scope, before, .braced (.space name) head opening inner closing foot⟩
      have hsite : site.node.item = .namespaceBlock name (Node.items inner) := rfl
      have hpath : next.path = some (qualify scope.path name) := Scope.path_enter_space scope name
      have hunit : unitOf usual scope.path (scope.path.or scope.line)
            (.namespaceBlock name (Node.items inner)) =
          unitOfAll usual next.path (next.path.or next.line) (Node.items inner) := by
        rw [hpath]
        rfl
      rw [Node.item, Outside.item, hunit]
      exact (collects_space hsite).append hinner

/-! ## Sources -/

/-- The declarations of a source are those that a walk through its syntax meets and that count. -/
theorem collects_sitesOf {options : Options} {source : String} {unit : SourceUnit} {nodes : List Node}
    (hunit : unit? options source = some unit) (hnodes : IsSyntaxOf source.toList nodes) :
    Collects options.defaultNamespace [] unit (sitesOf nodes) := by
  obtain ⟨items, hitems, rfl⟩ := Option.map_eq_some_iff.1 hunit
  obtain rfl := Option.some.inj (hitems.symm.trans hnodes.items)
  have hplace : Place.file = .file → ({} : Scope).around = [] := fun _ => rfl
  refine collects_unitOfAll_of [] hplace hnodes.laidOut fun node hmem line before => ?_
  have hnone : ∀ header, .type header ∉ ({ line := line } : Scope).around := fun _ => List.not_mem_nil
  exact collects_unitOf before (hnodes.laidOut node hmem) hnone

theorem owners_suffix_of_mem_placed (type : TypeDeclaration) (owners : List String) :
    ∀ placed ∈ TypeDeclaration.placed owners type, owners <:+ placed.owners := by
  induction type using TypeDeclaration.induction generalizing owners with
  | step type ih =>
    rw [TypeDeclaration.placed_eq, List.forall_mem_cons, TypeDeclaration.placedAll_eq_flatMap]
    refine ⟨List.suffix_refl owners, fun placed hplaced => ?_⟩
    obtain ⟨inner, hinner, hmem⟩ := List.mem_flatMap.1 hplaced
    exact (List.suffix_cons type.name owners).trans (ih inner hinner _ placed hmem)

/-- The types of a unit are those that no types are around. -/
theorem filter_owners_placedAll (types : List TypeDeclaration) :
    (TypeDeclaration.placedAll [] types).filter (·.owners.isEmpty) = types.map (⟨[], ·⟩) := by
  rw [TypeDeclaration.placedAll_eq_flatMap, List.filter_flatMap, List.map_eq_flatMap]
  refine List.flatMap_congr fun type _ => ?_
  have hinner : (TypeDeclaration.placedAll [type.name] type.nested).filter (·.owners.isEmpty) = [] := by
    rw [List.filter_eq_nil_iff, TypeDeclaration.placedAll_eq_flatMap]
    intro placed hplaced hempty
    obtain ⟨inner, -, hmem⟩ := List.mem_flatMap.1 hplaced
    have hsuffix := owners_suffix_of_mem_placed inner [type.name] placed hmem
    rw [List.isEmpty_iff.1 hempty] at hsuffix
    exact List.cons_ne_nil _ _ (List.suffix_nil.1 hsuffix)
  rw [TypeDeclaration.placed_eq, List.filter_cons, hinner]
  rfl

/-- A walk through the syntax of a source goes forward and meets what is at its place among the tokens. What it meets
and what counts is what the source declares: the types at all depths, each with its members and with the types directly
inside of it, and the enumerations. The types of the unit are those that no types are around. -/
theorem unit_collects {options : Options} {source : String} {unit : SourceUnit}
    (hunit : unit? options source = some unit) :
    (∃ nodes, IsSyntaxOf source.toList nodes) ∧
      ∀ nodes, IsSyntaxOf source.toList nodes →
        let declared := (sitesOf nodes).filter (·.scope.counts)
        (sitesOf nodes).Pairwise (fun site other => site.before.length < other.before.length) ∧
          (∀ site ∈ sitesOf nodes, ∃ after,
            Token.ofSource? source.toList = some (site.before ++ Tree.tokensAll site.node.trees ++ after)) ∧
          (TypeDeclaration.placedAll [] unit.types).map PlacedType.shallow =
            declared.filterMap (Site.type? options.defaultNamespace) ∧
          unit.types.map (fun type => PlacedType.shallow ⟨[], type⟩) =
            (declared.filterMap (Site.type? options.defaultNamespace)).filter (·.1.isEmpty) ∧
          unit.enumerations = declared.filterMap (Site.enumeration? options.defaultNamespace) := by
  obtain ⟨items, hitems, -⟩ := Option.map_eq_some_iff.1 hunit
  refine ⟨exists_isSyntaxOf hitems, fun nodes hnodes => ?_⟩
  have hcollects := collects_sitesOf hunit hnodes
  refine ⟨hnodes.pairwise_sitesOf, fun site hsite => hnodes.exists_ofSource?_eq hsite, hcollects.types, ?_,
    hcollects.enumerations⟩
  rw [← hcollects.types, List.filter_map]
  have houtermost := filter_owners_placedAll unit.types
  have hsame : ((·.1.isEmpty) ∘ PlacedType.shallow : PlacedType → Bool) = (·.owners.isEmpty) := rfl
  rw [hsame, houtermost, List.map_map]
  rfl

/-- An enumeration and a type inside of a type. -/
def hoistingSource : String := "namespace N \x7b class A \x7b enum E \x7b V \x7d class B \x7b \x7d \x7d \x7d"

def hoistingTokens : List Token := [
  ⟨[], .word, "namespace"⟩, spaced .word "N", spaced .mark "\x7b",
  spaced .word "class", spaced .word "A", spaced .mark "\x7b",
  spaced .word "enum", spaced .word "E", spaced .mark "\x7b", spaced .word "V", spaced .mark "\x7d",
  spaced .word "class", spaced .word "B", spaced .mark "\x7b", spaced .mark "\x7d",
  spaced .mark "\x7d", spaced .mark "\x7d"]

def hoistingUnit : SourceUnit :=
  { types := [{ name := "A", namespaceName := "N", nested := [{ name := "B", namespaceName := "N" }] }]
    enumerations := [{ name := "E", namespaceName := "N", members := ["V"] }] }

theorem unit_collects_hoistingSource :
    unit? {} hoistingSource = some hoistingUnit ∧
      ∃ nodes, IsSyntaxOf hoistingSource.toList nodes ∧
        hoistingUnit.types.map (fun type => PlacedType.shallow ⟨[], type⟩) =
          (((sitesOf nodes).filter (·.scope.counts)).filterMap (Site.type? "Global")).filter (·.1.isEmpty) ∧
        hoistingUnit.enumerations =
          ((sitesOf nodes).filter (·.scope.counts)).filterMap (Site.enumeration? "Global") := by
  have htokens : Token.ofSource? hoistingSource.toList = some hoistingTokens := by decide +kernel
  have hunit : unit? {} hoistingSource = some hoistingUnit := by
    rw [unit?, items?_of_tokens htokens]
    rfl
  obtain ⟨⟨nodes, hnodes⟩, hall⟩ := unit_collects hunit
  obtain ⟨-, -, -, houtermost, henumerations⟩ := hall nodes hnodes
  exact ⟨hunit, nodes, hnodes, houtermost, henumerations⟩

/-! ## What is not declared -/

/-- A type in a namespace that stands in a type. -/
def innerSpaceSource : String := "class A \x7b namespace B \x7b class C \x7b \x7d \x7d \x7d"

/-- A type without items before those in its braces. -/
def bracedType (lead : List Trivia) (name : String) (inner : List Node) : Node :=
  .braced (.type { lead := lead, kind := .classType, name := name })
    [.leaf ⟨lead, .word, "class"⟩, .leaf (spaced .word name)] (spaced .mark "\x7b") inner (spaced .mark "\x7d") []

/-- A namespace with items in its braces. -/
def bracedSpace (lead : List Trivia) (name : String) (inner : List Node) : Node :=
  .braced (.space name) [.leaf ⟨lead, .word, "namespace"⟩, .leaf (spaced .word name)] (spaced .mark "\x7b") inner
    (spaced .mark "\x7d") []

def innerSpaceNodes : List Node :=
  [bracedType [] "A" [bracedSpace [.blank " "] "B" [bracedType [.blank " "] "C" []]]]

theorem isLaidOut_bracedType (place : Place) {lead : List Trivia} {name : String} {inner : List Node}
    (hname : name = nameOf [.leaf (spaced .word name)]) (hinner : ∀ node ∈ inner, node.IsLaidOut .body)
    (hne : ∀ node ∈ inner, node.trees ≠ []) : (bracedType lead name inner).IsLaidOut place := by
  let head : List Tree := [.leaf ⟨lead, .word, "class"⟩, .leaf (spaced .word name)]
  have hdeclared : (Outside.item (.type { lead := lead, kind := .classType, name := name }) []).declared? =
      some (leadOf (head ++ []), name) := rfl
  exact .braced place (begins_of_mem hdeclared (List.mem_cons_of_mem _ List.mem_cons_self) rfl hname) hinner hne

theorem isLaidOut_bracedSpace (place : Place) {lead : List Trivia} {name : String} {inner : List Node}
    (hinner : ∀ node ∈ inner, node.IsLaidOut .body) (hne : ∀ node ∈ inner, node.trees ≠ []) :
    (bracedSpace lead name inner).IsLaidOut place :=
  .braced place (begins_of_declared?_eq_none rfl _) hinner hne

theorem isSyntaxOf_innerSpaceNodes : IsSyntaxOf innerSpaceSource.toList innerSpaceNodes := by
  refine isSyntaxOf_of_tokens (by decide +kernel) rfl rfl (List.forall_mem_singleton.2 ?_)
    (by simp [innerSpaceNodes, bracedType, Node.trees])
  refine isLaidOut_bracedType .file rfl (List.forall_mem_singleton.2 ?_) (by simp [bracedSpace, Node.trees])
  refine isLaidOut_bracedSpace .body (List.forall_mem_singleton.2 ?_) (by simp [bracedType, Node.trees])
  exact isLaidOut_bracedType .body rfl (List.forall_mem_nil _) (List.forall_mem_nil _)

/-- The tokens of a line that says a namespace in a condition, and of a type after it. -/
def conditionalTokens : List Token := [
  ⟨[], .branch .ifBranch, "#if X\n"⟩, ⟨[], .word, "namespace"⟩, spaced .word "N", ⟨[], .mark, ";"⟩,
  ⟨[.blank "\n"], .branch .endBranch, "#endif"⟩,
  ⟨[.blank "\n"], .word, "class"⟩, spaced .word "C", spaced .mark "\x7b", spaced .mark "\x7d"]

/-- Not every type of a source is declared, and a line in a condition says no namespace. -/
theorem not_all_declared :
    (∃ nodes unit, IsSyntaxOf innerSpaceSource.toList nodes ∧ unit? {} innerSpaceSource = some unit ∧
      (TypeDeclaration.placedAll [] unit.types).map PlacedType.shallow ≠
        (sitesOf nodes).filterMap (Site.type? "Global")) ∧
    unit? {} "#if X\nnamespace N;\n#endif\nclass C \x7b \x7d" =
      some { types := [{ name := "C", namespaceName := "Global" }] } := by
  have hitems := isSyntaxOf_innerSpaceNodes.items
  have htokens : Token.ofSource? "#if X\nnamespace N;\n#endif\nclass C \x7b \x7d".toList = some conditionalTokens := by
    decide +kernel
  refine ⟨⟨innerSpaceNodes, { types := [{ name := "A", namespaceName := "Global" }] }, isSyntaxOf_innerSpaceNodes, ?_,
    ?_⟩, ?_⟩
  · rw [unit?, hitems]
    rfl
  · intro heq
    exact absurd (congrArg List.length heq) (by decide)
  · rw [unit?, items?_of_tokens htokens]
    rfl

end Source

end TypeBridge
