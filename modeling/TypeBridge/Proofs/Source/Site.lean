import TypeBridge.Proofs.Source.Layout
import TypeBridge.Source.Unit

/-!
# Walking through sources

A walk through the syntax of a source meets every item, an outer one before those in its braces, with what is around
it and all tokens before it. Only what is between the directives of a condition is not met. From what is around it and
what was met before, each item has a namespace.

Results:
* `exists_of_mem_sitesAll`, `around_suffix`: what is around the items that are met.
* `exists_tokensAll_eq`, `isLaidOut_of_mem_sites`: where they are in the source.
* `pairwise_sitesAll`: a walk only goes forward.
-/
namespace TypeBridge.Source

/-! ## Walking -/

def Outside.owner? : Outside → Option String
  | .type header => some header.name
  | .space _ => none

def Outside.space? : Outside → Option String
  | .space name => some name
  | .type _ => none

/-- What is around an item, the innermost first, and the last namespace before it that goes on to the end of the
source. -/
structure Scope where
  around : List Outside := []
  line : Option String := none

namespace Scope

/-- The scope of what is in braces. -/
def enter (scope : Scope) (outside : Outside) : Scope := { scope with around := outside :: scope.around }

/-- The scope of what follows a node. -/
def after (scope : Scope) (node : Node) : Scope :=
  match node.item with
  | .namespaceLine name => { scope with line := some name }
  | _ => scope

/-- The names of the types around an item, the innermost first. -/
def owners (scope : Scope) : List String := scope.around.filterMap Outside.owner?

/-- The names of the namespaces around an item, the outermost first. -/
def spaces (scope : Scope) : List String := (scope.around.filterMap Outside.space?).reverse

/-- The namespace around an item with the names of all around that, if there is one. -/
def path (scope : Scope) : Option String :=
  if scope.spaces = [] then none else some (".".intercalate scope.spaces)

/-- The namespace that an item is in: the one around it, or else the one that goes on from before it, or else the usual
one. -/
def namespaceName (usual : String) (scope : Scope) : String := (scope.path.or scope.line).getD usual

/-- Whether declarations count: none of the namespaces around them stands in a type. -/
def counts (scope : Scope) : Bool :=
  decide (scope.around.Pairwise fun inner outer => outer.owner?.isSome → inner.owner?.isSome)

end Scope

/-- An item of a source that a walk meets: what is around it, and the tokens of the source before it. -/
structure Site where
  scope : Scope
  before : List Token
  node : Node

namespace Node

mutual
/-- What a walk through a node meets. -/
def sites (scope : Scope) (before : List Token) : Node → List Site
  | .plain item trees => [⟨scope, before, .plain item trees⟩]
  | .braced outside head opening inner closing foot =>
    ⟨scope, before, .braced outside head opening inner closing foot⟩ ::
      sitesAll (scope.enter outside) (before ++ Tree.tokensAll head ++ [opening]) inner

/-- What a walk through some nodes meets. -/
def sitesAll (scope : Scope) (before : List Token) : List Node → List Site
  | [] => []
  | node :: nodes =>
    sites scope before node ++ sitesAll (scope.after node) (before ++ Tree.tokensAll node.trees) nodes
end

theorem after_eq (scope : Scope) (node : Node) : ∃ line, scope.after node = { scope with line := line } := by
  unfold Scope.after
  split
  · exact ⟨_, rfl⟩
  · exact ⟨scope.line, rfl⟩

theorem after_of_isLaidOut {scope : Scope} {node : Node} (h : node.IsLaidOut .body) : scope.after node = scope := by
  unfold Scope.after
  split
  · rename_i name heq
    cases h with
    | plain _ _ hline _ => exact absurd heq (hline name)
    | @braced _ outside => cases outside <;> cases heq
  · rfl

/-- What is met among some nodes is met in one of them, in the scope of all of them but for the line before. -/
theorem exists_of_mem_sitesAll {nodes : List Node} {scope : Scope} {before : List Token} {site : Site}
    (h : site ∈ sitesAll scope before nodes) :
    ∃ pre node post line, nodes = pre ++ node :: post ∧
      site ∈ node.sites { scope with line := line } (before ++ Tree.tokensAll (treesAll pre)) := by
  induction nodes generalizing scope before with
  | nil => cases h
  | cons first nodes ih =>
    rw [sitesAll, List.mem_append] at h
    rcases h with h | h
    · exact ⟨[], first, nodes, scope.line, rfl, by simpa [treesAll, Tree.tokensAll] using h⟩
    · obtain ⟨pre, node, post, line, rfl, hsite⟩ := ih h
      obtain ⟨other, hafter⟩ := after_eq scope first
      refine ⟨first :: pre, node, post, line, rfl, ?_⟩
      rw [hafter] at hsite
      rwa [treesAll, Tree.tokensAll_append, ← List.append_assoc]

theorem around_suffix {scope : Scope} {before : List Token} {node : Node} {site : Site}
    (h : site ∈ node.sites scope before) : scope.around <:+ site.scope.around := by
  induction node using induction generalizing scope before with
  | plain item trees =>
    obtain rfl := List.mem_singleton.1 h
    exact List.suffix_refl _
  | braced outside head opening inner closing foot ih =>
    rw [sites, List.mem_cons] at h
    rcases h with rfl | h
    · exact List.suffix_refl _
    · obtain ⟨pre, node, post, line, rfl, hsite⟩ := exists_of_mem_sitesAll h
      exact (List.suffix_cons outside scope.around).trans (ih node (by simp) hsite)

/-! ## Places -/

theorem treesAll_append (nodes others : List Node) :
    treesAll (nodes ++ others) = treesAll nodes ++ treesAll others := by
  simp [treesAll_eq_flatMap]

/-- What a walk meets is somewhere in the node that it walks through. -/
theorem exists_tokensAll_eq {scope : Scope} {before : List Token} {node : Node} {site : Site}
    (h : site ∈ node.sites scope before) :
    ∃ more after, site.before = before ++ more ∧
      Tree.tokensAll node.trees = more ++ Tree.tokensAll site.node.trees ++ after := by
  induction node using induction generalizing scope before with
  | plain item trees =>
    obtain rfl := List.mem_singleton.1 h
    exact ⟨[], [], by simp, by simp⟩
  | braced outside head opening inner closing foot ih =>
    rw [sites, List.mem_cons] at h
    rcases h with rfl | h
    · exact ⟨[], [], by simp, by simp⟩
    · obtain ⟨pre, node, post, line, rfl, hsite⟩ := exists_of_mem_sitesAll h
      obtain ⟨more, after, hbefore, htokens⟩ := ih node (by simp) hsite
      refine ⟨Tree.tokensAll head ++ opening :: (Tree.tokensAll (treesAll pre) ++ more),
        after ++ Tree.tokensAll (treesAll post) ++ closing :: Tree.tokensAll foot, by simp [hbefore], ?_⟩
      simp [trees, treesAll_append, treesAll, Tree.tokensAll_append, Tree.tokensAll, Tree.tokens, htokens]

theorem exists_tokensAll_eq_of_mem_sitesAll {scope : Scope} {before : List Token} {nodes : List Node} {site : Site}
    (h : site ∈ sitesAll scope before nodes) :
    ∃ more after, site.before = before ++ more ∧
      Tree.tokensAll (treesAll nodes) = more ++ Tree.tokensAll site.node.trees ++ after := by
  obtain ⟨pre, node, post, line, rfl, hsite⟩ := exists_of_mem_sitesAll h
  obtain ⟨more, after, hbefore, htokens⟩ := exists_tokensAll_eq hsite
  refine ⟨Tree.tokensAll (treesAll pre) ++ more, after ++ Tree.tokensAll (treesAll post), by simp [hbefore], ?_⟩
  simp [treesAll_append, treesAll, Tree.tokensAll_append, htokens]

theorem isLaidOut_of_mem_sites {place : Place} {scope : Scope} {before : List Token} {node : Node} {site : Site}
    (hnode : node.IsLaidOut place) (hne : node.trees ≠ []) (h : site ∈ node.sites scope before) :
    (∃ place, site.node.IsLaidOut place) ∧ site.node.trees ≠ [] := by
  induction node using induction generalizing place scope before with
  | plain item trees =>
    obtain rfl := List.mem_singleton.1 h
    exact ⟨⟨place, hnode⟩, hne⟩
  | braced outside head opening inner closing foot ih =>
    rw [sites, List.mem_cons] at h
    rcases h with rfl | h
    · exact ⟨⟨place, hnode⟩, hne⟩
    · obtain ⟨_, node, _, _, rfl, hsite⟩ := exists_of_mem_sitesAll h
      cases hnode with
      | braced _ _ hbody htrees => exact ih node (by simp) (hbody node (by simp)) (htrees node (by simp)) hsite

theorem length_tokensAll_pos {trees : List Tree} (h : trees ≠ []) : 0 < (Tree.tokensAll trees).length := by
  obtain ⟨tree, trees, rfl⟩ := List.exists_cons_of_ne_nil h
  exact List.length_pos_of_mem (Tree.first_mem_tokensAll tree trees)

theorem length_before_lt {place : Place} {scope : Scope} {before : List Token} {node : Node} {site : Site}
    (hnode : node.IsLaidOut place) (hne : node.trees ≠ []) (h : site ∈ node.sites scope before) :
    site.before.length < before.length + (Tree.tokensAll node.trees).length := by
  obtain ⟨more, after, hbefore, htokens⟩ := exists_tokensAll_eq h
  have hpos := length_tokensAll_pos (isLaidOut_of_mem_sites hnode hne h).2
  simp only [hbefore, htokens, List.length_append]
  omega

theorem length_before_le {scope : Scope} {before : List Token} {nodes : List Node} {site : Site}
    (h : site ∈ sitesAll scope before nodes) : before.length ≤ site.before.length := by
  obtain ⟨more, after, hbefore, -⟩ := exists_tokensAll_eq_of_mem_sitesAll h
  rw [hbefore, List.length_append]
  omega

theorem pairwise_sitesAll_of {place : Place} {scope : Scope} (before : List Token) {nodes : List Node}
    (hnodes : ∀ node ∈ nodes, node.IsLaidOut place) (hne : ∀ node ∈ nodes, node.trees ≠ [])
    (h : ∀ node ∈ nodes, ∀ scope before,
      (node.sites scope before).Pairwise fun site other => site.before.length < other.before.length) :
    (sitesAll scope before nodes).Pairwise fun site other => site.before.length < other.before.length := by
  induction nodes generalizing scope before with
  | nil => exact .nil
  | cons node nodes ih =>
    rw [List.forall_mem_cons] at hnodes hne h
    rw [sitesAll, List.pairwise_append]
    refine ⟨h.1 scope before, ih _ hnodes.2 hne.2 h.2, fun site hsite other hother => ?_⟩
    have hlt := length_before_lt hnodes.1 hne.1 hsite
    have hle := length_before_le hother
    rw [List.length_append] at hle
    omega

theorem pairwise_sites {place : Place} {scope : Scope} {before : List Token} {node : Node}
    (hnode : node.IsLaidOut place) :
    (node.sites scope before).Pairwise fun site other => site.before.length < other.before.length := by
  induction node using induction generalizing place scope before with
  | plain item trees => exact List.pairwise_singleton _ _
  | braced outside head opening inner closing foot ih =>
    cases hnode with
    | braced _ _ hbody hne =>
      rw [sites, List.pairwise_cons]
      refine ⟨fun site hsite => ?_,
        pairwise_sitesAll_of _ hbody hne fun node hmem _ _ => ih node hmem (hbody node hmem)⟩
      have hle := length_before_le hsite
      simp only [List.length_append, List.length_singleton] at hle
      change before.length < site.before.length
      omega

/-- A walk only goes forward. -/
theorem pairwise_sitesAll {place : Place} {scope : Scope} (before : List Token) {nodes : List Node}
    (hnodes : ∀ node ∈ nodes, node.IsLaidOut place) (hne : ∀ node ∈ nodes, node.trees ≠ []) :
    (sitesAll scope before nodes).Pairwise fun site other => site.before.length < other.before.length :=
  pairwise_sitesAll_of before hnodes hne fun node hmem _ _ => pairwise_sites (hnodes node hmem)

end Node

/-! ## Sources -/

/-- What a walk through the syntax of a source meets. -/
def sitesOf (nodes : List Node) : List Site := Node.sitesAll {} [] nodes

namespace IsSyntaxOf

variable {source : List Char} {nodes : List Node}

theorem ofSource?_eq (h : IsSyntaxOf source nodes) :
    Token.ofSource? source = some (Tree.tokensAll (Node.treesAll nodes)) := by
  obtain ⟨tokens, htokens, htrees⟩ := Option.bind_eq_some_iff.1 h.trees
  rw [htokens, Tree.tokensAll_ofTokens? htrees]

/-- What is met has its place among the tokens of the source. -/
theorem exists_ofSource?_eq (h : IsSyntaxOf source nodes) {site : Site} (hsite : site ∈ sitesOf nodes) :
    ∃ after, Token.ofSource? source = some (site.before ++ Tree.tokensAll site.node.trees ++ after) := by
  obtain ⟨more, after, hbefore, htokens⟩ := Node.exists_tokensAll_eq_of_mem_sitesAll hsite
  rw [List.nil_append] at hbefore
  exact ⟨after, by rw [h.ofSource?_eq, htokens, hbefore]⟩

theorem pairwise_sitesOf (h : IsSyntaxOf source nodes) :
    (sitesOf nodes).Pairwise fun site other => site.before.length < other.before.length :=
  Node.pairwise_sitesAll [] h.laidOut h.trees_ne_nil

/-- What is met is laid out, and it has trees. -/
theorem isLaidOut_of_mem_sitesOf (h : IsSyntaxOf source nodes) {site : Site} (hsite : site ∈ sitesOf nodes) :
    (∃ place, site.node.IsLaidOut place) ∧ site.node.trees ≠ [] := by
  obtain ⟨_, node, _, _, rfl, hmem⟩ := Node.exists_of_mem_sitesAll hsite
  exact Node.isLaidOut_of_mem_sites (h.laidOut node (by simp)) (h.trees_ne_nil node (by simp)) hmem

end IsSyntaxOf

end TypeBridge.Source
