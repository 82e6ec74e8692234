import TypeBridge.Proofs.Declaration.Merge
import TypeBridge.Proofs.Source.Declared

/-!
# The order of namespaces

Merging puts the enumerations of a source before its types, and so it may meet its namespaces in another order than a
walk through the source does. It does so exactly when a namespace that comes first has its first enumeration, if it has
one at all, after the first one of a namespace that comes later.

Results:
* `eraseDups_eq_iff`, `keepsOrder_flatMap_iff`: when two lists of names, each for several sources, have the same order.
* `keepsOrder_namespaces_iff`: the order for one source.
* `order_ofUnits_eq_iff`: the order of the namespaces of several sources.
-/
namespace TypeBridge

/-! ## Orders of names -/

/-- What it means that names have the order that they have in another list, where each name counts where it is first and
a name that is not in a list counts as after those that are. -/
def KeepsOrder (names others : List String) (m n : String) : Prop :=
  others.idxOf m < others.idxOf n → names.idxOf m < names.idxOf n

theorem pairwise_eraseDups (names : List String) :
    names.eraseDups.Pairwise fun m n => names.idxOf m < names.idxOf n := by
  induction names using List.reverseRecOn with
  | nil => exact .nil
  | append_singleton names name ih =>
    have hold : names.eraseDups.Pairwise fun m n => (names ++ [name]).idxOf m < (names ++ [name]).idxOf n := by
      refine ih.imp_of_mem fun hm hn hlt => ?_
      rwa [List.idxOf_append_of_mem (List.mem_eraseDups.1 hm), List.idxOf_append_of_mem (List.mem_eraseDups.1 hn)]
    rw [← DeclarationSet.addName_eraseDups, DeclarationSet.addName]
    split
    · exact hold
    · rename_i hnot
      rw [List.mem_eraseDups] at hnot
      refine List.pairwise_append.2 ⟨hold, List.pairwise_singleton _ _, fun m hm n hn => ?_⟩
      obtain rfl := List.mem_singleton.1 hn
      have hmem := List.mem_eraseDups.1 hm
      rw [List.idxOf_append_of_mem hmem, List.idxOf_append_of_notMem hnot]
      have := List.idxOf_lt_length_of_mem hmem
      omega

theorem mem_of_idxOf_lt {names : List String} {m n : String} (h : names.idxOf m < names.idxOf n) : m ∈ names := by
  rw [← List.idxOf_lt_length_iff]
  exact h.trans_le List.idxOf_le_length

/-- Of two lists with the same names, the names without repetitions are the same when their order is. -/
theorem eraseDups_eq_iff {names others : List String} (h : ∀ name, name ∈ names ↔ name ∈ others) :
    names.eraseDups = others.eraseDups ↔ ∀ m n, KeepsOrder names others m n := by
  have hperm : names.eraseDups.Perm others.eraseDups := by
    refine (List.perm_ext_iff_of_nodup (DeclarationSet.nodup_eraseDups _) (DeclarationSet.nodup_eraseDups _)).2
      fun name => ?_
    rw [List.mem_eraseDups, List.mem_eraseDups, h]
  constructor
  · intro heq m n hlt
    have hm := mem_of_idxOf_lt hlt
    by_cases hn : n ∈ others
    · -- Both names are in the common list, which has the order of either of the two.
      have hboth := (heq ▸ pairwise_eraseDups names).and (pairwise_eraseDups others)
      let same (a b : String) : Prop := names.idxOf a < names.idxOf b ↔ others.idxOf a < others.idxOf b
      have hsame : others.eraseDups.Pairwise same := hboth.imp fun hlt => by simp only [same]; omega
      have hflip : others.eraseDups.Pairwise (flip same) := hboth.imp fun hlt => by simp only [flip, same]; omega
      have hself (a : String) (_ : a ∈ others.eraseDups) : same a a := by simp [same]
      exact (hsame.forall_of_forall_of_flip hself hflip (List.mem_eraseDups.2 hm) (List.mem_eraseDups.2 hn)).2 hlt
    · rw [List.idxOf_eq_length (mt (h n).1 hn)]
      exact List.idxOf_lt_length_of_mem ((h m).2 hm)
  · intro hkeeps
    refine hperm.eq_of_pairwise (fun a b _ _ hab hba => absurd hab (by omega)) (pairwise_eraseDups names)
      ((pairwise_eraseDups others).imp fun hlt => hkeeps _ _ hlt)

/-- Names that are not in what comes first have the order that they have in what comes then. -/
theorem idxOf_lt_append_iff {first names last : List String} {m n : String} (hm : m ∉ first) (hn : n ∉ first)
    (hmem : m ∈ names) :
    (first ++ (names ++ last)).idxOf m < (first ++ (names ++ last)).idxOf n ↔ names.idxOf m < names.idxOf n := by
  rw [List.idxOf_append_of_notMem hm, List.idxOf_append_of_notMem hn, List.idxOf_append_of_mem hmem]
  have hlt := List.idxOf_lt_length_of_mem hmem
  by_cases h : n ∈ names
  · rw [List.idxOf_append_of_mem h]
    omega
  · rw [List.idxOf_append_of_notMem h, List.idxOf_eq_length h]
    omega

/-- The names of several sources keep their order when in each source those do that no source before has. -/
theorem keepsOrder_flatMap_iff {α : Type} {f g : α → List String} {sources : List α}
    (h : ∀ source ∈ sources, ∀ name, name ∈ f source ↔ name ∈ g source) :
    (∀ m n, KeepsOrder (sources.flatMap f) (sources.flatMap g) m n) ↔
      ∀ first source last, sources = first ++ source :: last →
        ∀ m n, m ∉ first.flatMap g → n ∉ first.flatMap g → KeepsOrder (f source) (g source) m n := by
  have hsplit (k : α → List String) (first : List α) (source : α) (last : List α) :
      (first ++ source :: last).flatMap k = first.flatMap k ++ (k source ++ last.flatMap k) := by simp
  have hfirst {first : List α} {source : α} {last : List α} (hsources : sources = first ++ source :: last)
      (name : String) : name ∈ first.flatMap f ↔ name ∈ first.flatMap g := by
    have hmem (other : α) (hother : other ∈ first) : other ∈ sources := hsources ▸ List.mem_append_left _ hother
    simp only [List.mem_flatMap]
    exact exists_congr fun other => and_congr_right fun hother => h other (hmem other hother) name
  constructor
  · intro hkeeps first source last hsources m n hm hn hlt
    have hmem := mem_of_idxOf_lt hlt
    have hmemf := (h source (by simp [hsources]) m).2 hmem
    have hall := hkeeps m n
    rw [hsources, KeepsOrder, hsplit, hsplit, idxOf_lt_append_iff hm hn hmem,
      idxOf_lt_append_iff (mt (hfirst hsources m).1 hm) (mt (hfirst hsources n).1 hn) hmemf] at hall
    exact hall hlt
  · intro hkeeps m n hlt
    obtain ⟨other, hother, hmother⟩ := List.mem_flatMap.1 (mem_of_idxOf_lt hlt)
    have hfind : (sources.find? fun source => decide (m ∈ g source)).isSome :=
      List.find?_isSome.2 ⟨other, hother, by simpa using hmother⟩
    obtain ⟨source, hsource⟩ := Option.isSome_iff_exists.1 hfind
    obtain ⟨hmsource, first, last, hsources, hbefore⟩ := List.find?_eq_some_iff_append.1 hsource
    have hmem : m ∈ g source := by simpa using hmsource
    have hm : m ∉ first.flatMap g := by
      simp only [List.mem_flatMap, not_exists, not_and]
      exact fun other hother => by simpa using hbefore other hother
    have hn : n ∉ first.flatMap g := by
      intro hn
      rw [hsources, hsplit, List.idxOf_append_of_notMem hm, List.idxOf_append_of_mem hn] at hlt
      have := List.idxOf_lt_length_of_mem hn
      omega
    have hone := hkeeps first source last hsources m n hm hn
    rw [hsources, hsplit, idxOf_lt_append_iff hm hn hmem] at hlt
    rw [hsources, hsplit, idxOf_lt_append_iff (mt (hfirst hsources m).1 hm) (mt (hfirst hsources n).1 hn)
      ((h source (by simp [hsources]) m).2 hmem)]
    exact hone hlt

namespace Source

/-! ## Namespaces of a source -/

/-- The namespace that a site declares something in, if it does. -/
def Site.space? (usual : String) (site : Site) : Option String :=
  ((site.type? usual).map (·.2.namespaceName)).or ((site.enumeration? usual).map (·.namespaceName))

/-- The namespaces of the types and enumerations of a source, in its order. -/
def spacesOf (usual : String) (nodes : List Node) : List String :=
  ((sitesOf nodes).filter (·.scope.counts)).filterMap (Site.space? usual)

/-- The namespaces of the enumerations of a source, in its order. -/
def enumerationSpacesOf (usual : String) (nodes : List Node) : List String :=
  ((sitesOf nodes).filter (·.scope.counts)).filterMap fun site => (site.enumeration? usual).map (·.namespaceName)

/-- The types inside of a type are in its namespace. -/
theorem namespaceName_placed_typesOf (space : String) (item : Item) (owners : List String) :
    ∀ placed ∈ TypeDeclaration.placedAll owners (typesOf space item), placed.type.namespaceName = space := by
  induction item using Item.induction generalizing owners with
  | step item ih =>
    cases item with
    | type header items =>
      refine forall_placedAll_type (fun type htype => ?_) fun item hitem => ih item hitem _
      obtain rfl := List.singleton_inj.1 htype
      rfl
    | namespaceBlock | namespaceLine | enumeration | property | other => exact List.forall_mem_nil _

/-- What it means that the types inside of a type are in its namespace, for all types of a unit. -/
def IsUniform (unit : SourceUnit) : Prop :=
  ∀ type ∈ unit.types, ∀ placed ∈ TypeDeclaration.placed [] type, placed.type.namespaceName = type.namespaceName

theorem isUniform_unitOfAll (usual : String) (outer current : Option String) (items : List Item) :
    IsUniform (unitOfAll usual outer current items) := by
  have hnil : IsUniform {} := List.forall_mem_nil _
  have happend (first second : SourceUnit) (hfirst : IsUniform first) (hsecond : IsUniform second) :
      IsUniform (Source.append first second) := List.forall_mem_append.2 ⟨hfirst, hsecond⟩
  refine unitOfAll_of hnil happend (fun item _ => ?_) outer current
  refine unitOf_of hnil happend (fun space item => ?_) usual item
  have hspace (type : TypeDeclaration) (htype : type ∈ typesOf space item) :
      ∀ placed ∈ TypeDeclaration.placed [] type, placed.type.namespaceName = space := by
    intro placed hplaced
    refine namespaceName_placed_typesOf space item [] placed ?_
    rw [TypeDeclaration.placedAll_eq_flatMap]
    exact List.mem_flatMap.2 ⟨type, htype, hplaced⟩
  intro type htype placed hplaced
  have hself : (⟨[], type⟩ : PlacedType) ∈ TypeDeclaration.placed [] type := by
    rw [TypeDeclaration.placed_eq]
    exact List.mem_cons_self
  exact (hspace type htype placed hplaced).trans (hspace type htype _ hself).symm

/-- The namespaces of a type and the types inside of it are its own one only. -/
theorem mem_spaces_placed {unit : SourceUnit} (h : IsUniform unit) {type : TypeDeclaration} (htype : type ∈ unit.types)
    (name : String) :
    name ∈ [type.namespaceName] ↔ name ∈ (TypeDeclaration.placed [] type).map (·.type.namespaceName) := by
  simp only [List.mem_map, List.mem_singleton]
  constructor
  · rintro rfl
    exact ⟨⟨[], type⟩, by rw [TypeDeclaration.placed_eq]; exact List.mem_cons_self, rfl⟩
  · rintro ⟨placed, hplaced, rfl⟩
    exact h type htype placed hplaced

theorem map_placedAll_eq_flatMap (types : List TypeDeclaration) :
    (TypeDeclaration.placedAll [] types).map (·.type.namespaceName) =
      types.flatMap fun type => (TypeDeclaration.placed [] type).map (·.type.namespaceName) := by
  rw [TypeDeclaration.placedAll_eq_flatMap, List.map_flatMap]

theorem mem_spaces_placedAll {unit : SourceUnit} (h : IsUniform unit) (name : String) :
    name ∈ unit.types.map (·.namespaceName) ↔
      name ∈ (TypeDeclaration.placedAll [] unit.types).map (·.type.namespaceName) := by
  rw [map_placedAll_eq_flatMap, List.map_eq_flatMap, List.mem_flatMap, List.mem_flatMap]
  exact exists_congr fun type => and_congr_right fun htype => mem_spaces_placed h htype name

/-- The types of a unit have the same order of namespaces as all types at all depths. -/
theorem keepsOrder_types {unit : SourceUnit} (h : IsUniform unit) (m n : String) :
    KeepsOrder (unit.types.map (·.namespaceName))
      ((TypeDeclaration.placedAll [] unit.types).map (·.type.namespaceName)) m n := by
  rw [map_placedAll_eq_flatMap, List.map_eq_flatMap]
  refine (keepsOrder_flatMap_iff fun type htype => mem_spaces_placed h htype).2 ?_ m n
  intro first type last heq m n _ _ hlt
  have hmem := (mem_spaces_placed h (by simp [heq]) m).2 (mem_of_idxOf_lt hlt)
  obtain rfl := List.mem_singleton.1 hmem
  have hne : n ≠ type.namespaceName := by
    rintro rfl
    exact Nat.lt_irrefl _ hlt
  simp [hne.symm]

/-! ## One source -/

theorem type?_eq_none_or (usual : String) (site : Site) :
    (site.type? usual).map (·.2.namespaceName) = none ∨
      (site.enumeration? usual).map (·.namespaceName) = none := by
  unfold Site.type? Site.enumeration?
  cases site.node.item with
  | enumeration => exact .inl rfl
  | namespaceBlock | namespaceLine | type | property | other => exact .inr rfl

/-- Names that do not come from what is left out have the order that they have in all. -/
theorem idxOf_lt_filterMap_iff {α : Type} {f g : α → Option String} (hone : ∀ a, f a = none ∨ g a = none)
    {members : List α} {m n : String} (hm : m ∉ members.filterMap g) (hn : n ∉ members.filterMap g) :
    (members.filterMap fun a => (f a).or (g a)).idxOf m < (members.filterMap fun a => (f a).or (g a)).idxOf n ↔
      (members.filterMap f).idxOf m < (members.filterMap f).idxOf n := by
  induction members with
  | nil => rfl
  | cons a members ih =>
    cases hf : f a with
    | some name =>
      have hg : g a = none := (hone a).resolve_left (by simp [hf])
      rw [List.filterMap_cons_none hg] at hm hn
      have hrest := ih hm hn
      simp only [List.filterMap_cons, hf, Option.some_or]
      rcases eq_or_ne name m with rfl | hmname
      · rcases eq_or_ne name n with rfl | hnname
        · simp
        · simp [List.idxOf_cons_ne _ hnname]
      · rcases eq_or_ne name n with rfl | hnname
        · simp
        · simpa [List.idxOf_cons_ne _ hmname, List.idxOf_cons_ne _ hnname] using hrest
    | none =>
      cases hg : g a with
      | none =>
        rw [List.filterMap_cons_none hg] at hm hn
        simpa [hf, hg] using ih hm hn
      | some name =>
        rw [List.filterMap_cons_some hg, List.mem_cons, not_or] at hm hn
        simpa [hf, hg, List.idxOf_cons_ne _ (Ne.symm hm.1), List.idxOf_cons_ne _ (Ne.symm hn.1)] using ih hm.2 hn.2

section OneSource

variable {usual : String} {unit : SourceUnit} {nodes : List Node}

theorem map_enumerations_eq (h : Collects usual [] unit (sitesOf nodes)) :
    unit.enumerations.map (·.namespaceName) = enumerationSpacesOf usual nodes := by
  rw [h.enumerations, List.map_filterMap, enumerationSpacesOf]

theorem map_placedAll_eq (h : Collects usual [] unit (sitesOf nodes)) :
    (TypeDeclaration.placedAll [] unit.types).map (·.type.namespaceName) =
      ((sitesOf nodes).filter (·.scope.counts)).filterMap fun site =>
        (site.type? usual).map (·.2.namespaceName) := by
  have hmap := congrArg (List.map (·.2.namespaceName)) h.types
  rwa [List.map_map, List.map_filterMap] at hmap

theorem mem_namespaces_iff (h : Collects usual [] unit (sitesOf nodes)) (huniform : IsUniform unit) (name : String) :
    name ∈ unit.namespaces ↔ name ∈ spacesOf usual nodes := by
  rw [SourceUnit.namespaces, List.mem_append, mem_spaces_placedAll huniform, map_enumerations_eq h, map_placedAll_eq h,
    enumerationSpacesOf, spacesOf]
  simp only [List.mem_filterMap, Site.space?, Option.or_eq_some_iff]
  constructor
  · rintro (⟨site, hsite, heq⟩ | ⟨site, hsite, heq⟩)
    · exact ⟨site, hsite, .inr ⟨(type?_eq_none_or usual site).resolve_right (by simp [heq]), heq⟩⟩
    · exact ⟨site, hsite, .inl heq⟩
  · rintro ⟨site, hsite, heq | ⟨-, heq⟩⟩
    · exact .inr ⟨site, hsite, heq⟩
    · exact .inl ⟨site, hsite, heq⟩

/-- Two namespaces of a source are merged in its order exactly when the enumerations of the first one do not begin after
those of the other one. -/
theorem keepsOrder_namespaces_iff (h : Collects usual [] unit (sitesOf nodes)) (huniform : IsUniform unit)
    (m n : String) :
    KeepsOrder unit.namespaces (spacesOf usual nodes) m n ↔
      ((spacesOf usual nodes).idxOf m < (spacesOf usual nodes).idxOf n →
        (enumerationSpacesOf usual nodes).idxOf m ≤ (enumerationSpacesOf usual nodes).idxOf n) := by
  refine imp_congr_right fun hlt => ?_
  have hne : m ≠ n := by
    rintro rfl
    exact Nat.lt_irrefl _ hlt
  rw [SourceUnit.namespaces, map_enumerations_eq h]
  generalize hrest : unit.types.map (·.namespaceName) = rest
  by_cases hm : m ∈ enumerationSpacesOf usual nodes
  · have hmlt := List.idxOf_lt_length_of_mem hm
    rw [List.idxOf_append_of_mem hm]
    by_cases hn : n ∈ enumerationSpacesOf usual nodes
    · have hidx := mt (List.idxOf_inj hm).1 hne
      rw [List.idxOf_append_of_mem hn]
      omega
    · rw [List.idxOf_append_of_notMem hn, List.idxOf_eq_length hn]
      omega
  · rw [List.idxOf_append_of_notMem hm, List.idxOf_eq_length hm]
    by_cases hn : n ∈ enumerationSpacesOf usual nodes
    · have hnlt := List.idxOf_lt_length_of_mem hn
      rw [List.idxOf_append_of_mem hn]
      omega
    · -- Both have only types, and these keep their order.
      rw [List.idxOf_append_of_notMem hn, List.idxOf_eq_length hn, ← hrest]
      have hplaced := (idxOf_lt_filterMap_iff (type?_eq_none_or usual) hm hn).1 hlt
      rw [← map_placedAll_eq h] at hplaced
      have htypes := keepsOrder_types huniform m n hplaced
      omega

end OneSource

/-! ## Several sources -/

/-- The declarations of a source with the given syntax. -/
def unitOfNodes (usual : String) (nodes : List Node) : SourceUnit := unitOfAll usual none none (Node.items nodes)

section Several

variable {options : Options} {sources : List String} {units : List SourceUnit}

theorem exists_syntaxes (hunits : List.Forall₂ (fun source unit => unit? options source = some unit) sources units) :
    ∃ syntaxes, List.Forall₂ (fun source nodes => IsSyntaxOf source.toList nodes) sources syntaxes := by
  induction hunits with
  | nil => exact ⟨[], .nil⟩
  | cons hunit _ ih =>
    obtain ⟨items, hitems, -⟩ := Option.map_eq_some_iff.1 hunit
    obtain ⟨nodes, hnodes⟩ := exists_isSyntaxOf hitems
    obtain ⟨syntaxes, hsyntaxes⟩ := ih
    exact ⟨nodes :: syntaxes, .cons hnodes hsyntaxes⟩

/-- What sources declare is what their syntax says. -/
theorem collects_syntaxes (hunits : List.Forall₂ (fun source unit => unit? options source = some unit) sources units)
    {syntaxes : List (List Node)}
    (hsyntaxes : List.Forall₂ (fun source nodes => IsSyntaxOf source.toList nodes) sources syntaxes) :
    units = syntaxes.map (unitOfNodes options.defaultNamespace) ∧
      ∀ nodes ∈ syntaxes,
        Collects options.defaultNamespace [] (unitOfNodes options.defaultNamespace nodes) (sitesOf nodes) := by
  induction hunits generalizing syntaxes with
  | nil =>
    cases hsyntaxes
    exact ⟨rfl, List.forall_mem_nil _⟩
  | cons hunit _ ih =>
    cases hsyntaxes with
    | cons hnodes hsyntaxes =>
      obtain ⟨rfl, hall⟩ := ih hsyntaxes
      have hcollects := collects_sitesOf hunit hnodes
      rw [unit?, hnodes.items] at hunit
      obtain rfl := Option.some.inj hunit
      exact ⟨rfl, List.forall_mem_cons.2 ⟨hcollects, hall⟩⟩

/-- The namespaces of several sources are in the order in which their declarations first come in the sources exactly
when, in each source, of two namespaces that no source before has, the enumerations of the one that comes first do not
begin after those of the other one. -/
theorem order_ofUnits_eq_iff
    (hunits : List.Forall₂ (fun source unit => unit? options source = some unit) sources units) :
    let spaces := spacesOf options.defaultNamespace
    let enumerationSpaces := enumerationSpacesOf options.defaultNamespace
    (∃ syntaxes, List.Forall₂ (fun source nodes => IsSyntaxOf source.toList nodes) sources syntaxes) ∧
      ∀ syntaxes, List.Forall₂ (fun source nodes => IsSyntaxOf source.toList nodes) sources syntaxes →
        ((DeclarationSet.ofUnits units).order = (syntaxes.flatMap spaces).eraseDups ↔
          ∀ first nodes last, syntaxes = first ++ nodes :: last → ∀ m n, m ∉ first.flatMap spaces →
            n ∉ first.flatMap spaces → (spaces nodes).idxOf m < (spaces nodes).idxOf n →
              (enumerationSpaces nodes).idxOf m ≤ (enumerationSpaces nodes).idxOf n) := by
  refine ⟨exists_syntaxes hunits, fun syntaxes hsyntaxes => ?_⟩
  obtain ⟨rfl, hcollects⟩ := collects_syntaxes hunits hsyntaxes
  have huniform (nodes : List Node) : IsUniform (unitOfNodes options.defaultNamespace nodes) :=
    isUniform_unitOfAll _ _ _ _
  have hmem (nodes : List Node) (hnodes : nodes ∈ syntaxes) (name : String) :
      name ∈ (unitOfNodes options.defaultNamespace nodes).namespaces ↔
        name ∈ spacesOf options.defaultNamespace nodes :=
    mem_namespaces_iff (hcollects nodes hnodes) (huniform nodes) name
  have hall (name : String) :
      name ∈ syntaxes.flatMap (fun nodes => (unitOfNodes options.defaultNamespace nodes).namespaces) ↔
        name ∈ syntaxes.flatMap (spacesOf options.defaultNamespace) := by
    simp only [List.mem_flatMap]
    exact exists_congr fun nodes => and_congr_right fun hnodes => hmem nodes hnodes name
  rw [(DeclarationSet.holds_ofUnits _).order, List.flatMap_map, eraseDups_eq_iff hall, keepsOrder_flatMap_iff hmem]
  refine forall₄_congr fun first nodes last heq => forall₄_congr fun m n _ _ => ?_
  exact keepsOrder_namespaces_iff (hcollects nodes (by simp [heq])) (huniform nodes) m n

end Several

/-- A type in a namespace before an enumeration in another one. -/
def mixedSource : String :=
  "namespace A \x7b class X \x7b \x7d \x7d namespace B \x7b enum E \x7b V \x7d \x7d"

def mixedUnit : SourceUnit :=
  { types := [{ name := "X", namespaceName := "A" }]
    enumerations := [{ name := "E", namespaceName := "B", members := ["V"] }] }

def mixedEnumeration : List Tree :=
  [.leaf (spaced .word "enum"), .leaf (spaced .word "E"),
    .group .curly (spaced .mark "\x7b") [.leaf (spaced .word "V")] (spaced .mark "\x7d")]

def mixedNodes : List Node := [
  bracedSpace [] "A" [bracedType [.blank " "] "X" []],
  bracedSpace [.blank " "] "B" [.plain (.enumeration ⟨[.blank " "], "E", ["V"]⟩) mixedEnumeration]]

theorem isSyntaxOf_mixedNodes : IsSyntaxOf mixedSource.toList mixedNodes := by
  refine isSyntaxOf_of_tokens (by decide +kernel) rfl rfl
    (List.forall_mem_cons.2 ⟨?_, List.forall_mem_singleton.2 ?_⟩) (by simp [mixedNodes, bracedSpace, Node.trees])
  · refine isLaidOut_bracedSpace .file (List.forall_mem_singleton.2 ?_) (by simp [bracedType, Node.trees])
    exact isLaidOut_bracedType .body rfl (List.forall_mem_nil _) (List.forall_mem_nil _)
  · refine isLaidOut_bracedSpace .file (List.forall_mem_singleton.2 ?_) (by simp [Node.trees, mixedEnumeration])
    have hdeclared : (Item.enumeration ⟨[.blank " "], "E", ["V"]⟩).declared? =
        some (leadOf (mixedEnumeration ++ []), "E") := rfl
    have hline : ∀ name, Item.enumeration ⟨[.blank " "], "E", ["V"]⟩ ≠ .namespaceLine name := by simp
    exact .plain .body rfl hline
      (begins_of_mem hdeclared (List.mem_cons_of_mem _ List.mem_cons_self) rfl rfl)

/-- The namespace of an enumeration is put before that of a type that comes first. -/
theorem order_mixedSource :
    unit? {} mixedSource = some mixedUnit ∧ IsSyntaxOf mixedSource.toList mixedNodes ∧
      (DeclarationSet.ofUnits [mixedUnit]).order ≠ ([mixedNodes].flatMap (spacesOf "Global")).eraseDups := by
  have hunit : unit? {} mixedSource = some mixedUnit := by
    rw [unit?, isSyntaxOf_mixedNodes.items]
    rfl
  refine ⟨hunit, isSyntaxOf_mixedNodes, fun heq => ?_⟩
  obtain ⟨-, hall⟩ := order_ofUnits_eq_iff (.cons hunit .nil)
  have hkeeps := (hall [mixedNodes] (.cons isSyntaxOf_mixedNodes .nil)).1 heq [] mixedNodes [] rfl "A" "B"
    List.not_mem_nil List.not_mem_nil (by decide)
  exact absurd hkeeps (by decide)

end Source

end TypeBridge
