import TypeBridge.Proofs.Source.Reading

/-!
# How items are laid out

The trees of a source are divided among its items: each item has a run of trees to itself, and the runs of the items
in braces make up what is between the braces. A node is an item together with its trees. What stands before a
declaration is what stands before the first of its trees, and its name is one of its words.

Results:
* `lays_readType`, `lays_readDeclaration`, `lays_readItem`: one item.
* `readsAll_itemsAt`, `exists_isSyntaxOf`: the items of a source.
-/
namespace TypeBridge.Source

/-! ## Nodes -/

/-- What has items in braces. -/
inductive Outside where
  | space (name : String)
  | type (header : TypeHeader)

/-- The item that has the given items in its braces. -/
def Outside.item (outside : Outside) (items : List Item) : Item :=
  match outside with
  | .space name => .namespaceBlock name items
  | .type header => .type header items

/-- An item, and the trees that it is written with. -/
inductive Node where
  /-- An item without others in it. -/
  | plain (item : Item) (trees : List Tree)
  /-- An item with others in braces, between the trees before the braces and those after them. -/
  | braced (outside : Outside) (head : List Tree) (opening : Token) (inner : List Node) (closing : Token)
    (foot : List Tree)

namespace Node

mutual
/-- The item of a node. -/
def item : Node → Item
  | .plain item _ => item
  | .braced outside _ _ inner _ _ => outside.item (items inner)

/-- The items of some nodes. -/
def items : List Node → List Item
  | [] => []
  | node :: nodes => item node :: items nodes
end

mutual
/-- The trees of a node. -/
def trees : Node → List Tree
  | .plain _ trees => trees
  | .braced _ head opening inner closing foot =>
    head ++ .group .curly opening (treesAll inner) closing :: foot

/-- The trees of some nodes, one after the other. -/
def treesAll : List Node → List Tree
  | [] => []
  | node :: nodes => trees node ++ treesAll nodes
end

theorem treesAll_eq_flatMap (nodes : List Node) : treesAll nodes = nodes.flatMap trees := by
  induction nodes with
  | nil => rfl
  | cons node nodes ih => rw [treesAll, ih, List.flatMap_cons]

/-- To prove something of all nodes, it may be assumed of the nodes in braces. -/
@[elab_as_elim]
theorem induction {motive : Node → Prop} (plain : ∀ item trees, motive (.plain item trees))
    (braced : ∀ outside head opening inner closing foot, (∀ node ∈ inner, motive node) →
      motive (.braced outside head opening inner closing foot))
    (node : Node) : motive node :=
  Node.rec (motive_2 := fun nodes => ∀ node ∈ nodes, motive node) plain braced
    (fun _ h => absurd h List.not_mem_nil) (fun _ _ first rest => List.forall_mem_cons.2 ⟨first, rest⟩) node

end Node

/-! ## Layout -/

/-- What stands before a declaration, and its name. -/
def Item.declared? : Item → Option (List Trivia × String)
  | .type header _ => some (header.lead, header.name)
  | .enumeration declaration => some (declaration.lead, declaration.name)
  | .property p => some (p.lead, p.name)
  | _ => none

/-- What it means that trees may begin an item: if it is a declaration, what stands before it stands before the first
tree, and its name is a word among the trees. -/
def Item.Begins (item : Item) (trees : List Tree) : Prop :=
  ∀ lead name, item.declared? = some (lead, name) →
    leadOf trees = lead ∧ ∃ token, .leaf token ∈ trees ∧ token.kind = .word ∧ name = nameOf [.leaf token]

/-- What it means that a node stands where it may. A namespace that goes on to the end of the source stands in no
braces. -/
inductive Node.IsLaidOut : Place → Node → Prop
  | line (name : String) (trees : List Tree) : IsLaidOut .file (.plain (.namespaceLine name) trees)
  | plain (place : Place) {item : Item} {trees : List Tree} :
      item.inner = [] → (∀ name, item ≠ .namespaceLine name) → item.Begins trees → IsLaidOut place (.plain item trees)
  | braced (place : Place) {outside : Outside} {head foot : List Tree} {opening closing : Token} {inner : List Node} :
      (outside.item []).Begins head → (∀ node ∈ inner, IsLaidOut .body node) → (∀ node ∈ inner, node.trees ≠ []) →
      IsLaidOut place (.braced outside head opening inner closing foot)

/-- What it means that trees begin with an item and go on with the rest. -/
def Lays (place : Place) (ts : List Tree) (item : Item) (rest : List Tree) : Prop :=
  ∃ node : Node, node.IsLaidOut place ∧ node.item = item ∧ ts = node.trees ++ rest

/-- What it means that trees are those of some items, each of which has some. -/
def LaysAll (place : Place) (ts : List Tree) (items : List Item) : Prop :=
  ∃ nodes : List Node, (∀ node ∈ nodes, node.IsLaidOut place) ∧ (∀ node ∈ nodes, node.trees ≠ []) ∧
    Node.items nodes = items ∧ Node.treesAll nodes = ts

theorem begins_of_declared?_eq_none {item : Item} (h : item.declared? = none) (trees : List Tree) :
    item.Begins trees := by
  intro lead name heq
  rw [h] at heq
  cases heq

theorem lays_other {place : Place} {ts rest : List Tree} (h : rest <:+ ts) : Lays place ts .other rest := by
  obtain ⟨own, rfl⟩ := h
  exact ⟨.plain .other own, .plain place rfl nofun (begins_of_declared?_eq_none rfl own), rfl, rfl⟩

theorem leadOf_append {ts : List Tree} (h : ts ≠ []) (rest : List Tree) : leadOf (ts ++ rest) = leadOf ts := by
  obtain ⟨tree, trees, rfl⟩ := List.exists_cons_of_ne_nil h
  rfl

/-- A declaration begins with trees among which its name is, when all that is read has before it what stands before
the declaration. -/
theorem begins_of_mem {item : Item} {trees rest : List Tree} {name : String} {token : Token}
    (hdeclared : item.declared? = some (leadOf (trees ++ rest), name)) (hmem : .leaf token ∈ trees)
    (hword : token.kind = .word) (hname : name = nameOf [.leaf token]) : item.Begins trees := by
  intro lead other heq
  obtain ⟨rfl, rfl⟩ := Prod.mk.inj (Option.some.inj (hdeclared.symm.trans heq))
  exact ⟨(leadOf_append (List.ne_nil_of_mem hmem) rest).symm, token, hmem, hword, hname⟩

theorem lays_plain (place : Place) {item : Item} {own rest : List Tree} {name : String} {token : Token}
    (hinner : item.inner = []) (hdeclared : item.declared? = some (leadOf (own ++ rest), name))
    (hmem : .leaf token ∈ own) (hword : token.kind = .word) (hname : name = nameOf [.leaf token]) :
    Lays place (own ++ rest) item rest := by
  refine ⟨.plain item own, .plain place hinner ?_ (begins_of_mem hdeclared hmem hword hname), rfl, rfl⟩
  rintro line rfl
  cases hdeclared

/-! ## Pieces -/

theorem take_append {rule : Rule Part} {ts taken rest : List Tree} (h : take rule ts = some (taken, rest)) :
    ts = taken ++ rest :=
  (language.split?_eq_some h).2

theorem readAttributes_suffix {ts rest : List Tree} {read : List Attribute}
    (h : readAttributes ts = some (read, rest)) : rest <:+ ts := by
  simp only [readAttributes, Option.bind_eq_bind, Option.bind_eq_some_iff, Prod.exists, Option.some.injEq,
    Prod.mk.injEq] at h
  obtain ⟨lists, left, htake, -, rfl⟩ := h
  exact ⟨lists, (take_append htake).symm⟩

theorem readTypeKind_suffix {ts rest : List Tree} {kind : TypeKind} (h : readTypeKind ts = some (kind, rest)) :
    rest <:+ ts := by
  obtain ⟨⟨rule, other⟩, -, hrule⟩ := List.exists_of_findSome?_eq_some h
  obtain ⟨left, hleft, heq⟩ := Option.map_eq_some_iff.1 hrule
  obtain ⟨-, rfl⟩ := Prod.mk.inj heq
  exact language.rest?_suffix hleft

theorem readHeaderPart_suffix {part : HeaderPart} {ts rest : List Tree}
    (h : readHeaderPart ts = some (part, rest)) : rest <:+ ts := by
  have htake {rule : Rule Part} {taken left : List Tree} (h : take rule ts = some (taken, left)) : left <:+ ts :=
    ⟨taken, (take_append h).symm⟩
  unfold readHeaderPart at h
  split at h
  · split at h
    all_goals
      simp only [Option.bind_eq_bind, Option.bind_eq_some_iff, Prod.exists, Option.some.injEq, Prod.mk.injEq] at h
      obtain ⟨_, _, h, -, rfl⟩ := h
      exact htake h
  · simp only [Option.bind_eq_bind, Option.bind_eq_some_iff, Prod.exists, Option.some.injEq, Prod.mk.injEq] at h
    obtain ⟨_, _, h, -, rfl⟩ := h
    exact htake h
  · cases h

theorem readHeaderParts_suffix (n : Nat) (ts : List Tree) : (readHeaderParts n ts).2 <:+ ts := by
  induction n generalizing ts with
  | zero => exact List.suffix_refl ts
  | succ n ih =>
    rw [readHeaderParts]
    split
    · rename_i part rest hpart
      exact (ih rest).trans (readHeaderPart_suffix hpart)
    · exact List.suffix_refl ts

theorem passEnd_suffix (ts : List Tree) : passEnd ts <:+ ts := by
  unfold passEnd
  cases h : pass ";" ts with
  | none => exact List.suffix_refl ts
  | some rest => exact language.rest?_suffix h

/-! ## Items -/

/-- What it means that a reader lays out what it reads, when the trees in `before` belong to the item as well. -/
def LaysAfter (place : Place) (lead : List Trivia) (reader : Reader Item) : Prop :=
  ∀ before ts item rest, leadOf (before ++ ts) = lead → reader ts = some (item, rest) →
    Lays place (before ++ ts) item rest

/-- The same of something that reads all items in some trees. -/
def ReadsAll (place : Place) (items : List Tree → Option (List Item)) : Prop :=
  ∀ ts list, items ts = some list → LaysAll place ts list

variable {items : List Tree → Option (List Item)}

theorem lays_readType (hitems : ReadsAll .body items) (place : Place) (lead : List Trivia) :
    LaysAfter place lead (readType items lead) := by
  intro before ts item rest hlead h
  simp only [readType, Option.bind_eq_bind, Option.bind_eq_some_iff, Prod.exists] at h
  obtain ⟨kind, afterKind, hkind, name, afterName, hname, h⟩ := h
  obtain ⟨marks, rfl⟩ := readTypeKind_suffix hkind
  obtain ⟨token, rfl, hword⟩ := take_kind_word hname
  obtain rfl := take_append hname
  obtain ⟨middle, hmiddle⟩ := readHeaderParts_suffix afterName.length afterName
  generalize readHeaderParts afterName.length afterName = read at h hmiddle
  obtain ⟨parts, afterHeader⟩ := read
  dsimp only at h hmiddle
  subst hmiddle
  have hsplit : before ++ (marks ++ ([Tree.leaf token] ++ (middle ++ afterHeader))) =
      (before ++ marks ++ .leaf token :: middle) ++ afterHeader := by simp
  rw [hsplit] at hlead ⊢
  have hmem : Tree.leaf token ∈ before ++ marks ++ .leaf token :: middle := by simp
  split at h
  · rename_i opening body closing after
    simp only [Option.bind_eq_some_iff, Option.some.injEq, Prod.mk.injEq] at h
    obtain ⟨inner, hinner, rfl, rfl⟩ := h
    obtain ⟨nodes, hnodes, hne, rfl, rfl⟩ := hitems body inner hinner
    obtain ⟨foot, hfoot⟩ := passEnd_suffix after
    let header := headerOf lead kind (nameOf [.leaf token]) parts
    have hbegins : (Outside.item (.type header) []).Begins (before ++ marks ++ .leaf token :: middle) :=
      begins_of_mem (by rw [hlead]; rfl) hmem hword rfl
    exact ⟨.braced (.type header) _ opening nodes closing foot, .braced place hbegins hnodes hne, rfl,
      by simp [Node.trees, hfoot]⟩
  · simp only [Option.bind_eq_some_iff, Option.some.injEq, Prod.mk.injEq] at h
    obtain ⟨left, hleft, rfl, rfl⟩ := h
    obtain ⟨mark, rfl⟩ := language.rest?_suffix hleft
    rw [← List.append_assoc] at hlead ⊢
    exact lays_plain place rfl (by rw [hlead]; rfl) (List.mem_append_left _ hmem) hword rfl

theorem lays_readEnumeration (place : Place) (lead : List Trivia) :
    LaysAfter place lead (readEnumeration lead) := by
  intro before ts item rest hlead h
  simp only [readEnumeration, Option.bind_eq_bind, Option.bind_eq_some_iff, Prod.exists] at h
  obtain ⟨afterMark, hmark, name, afterName, hname, bases, afterBases, hbases, h⟩ := h
  obtain ⟨mark, rfl⟩ := language.rest?_suffix hmark
  obtain ⟨token, rfl, hword⟩ := take_kind_word hname
  obtain rfl := take_append hname
  obtain rfl := take_append hbases
  -- What is left after the body or the semicolon is an end of what is left after the bases.
  have hlays (members : List String) (own rest : List Tree) (hown : afterBases = own ++ rest) :
      Lays place (before ++ (mark ++ ([Tree.leaf token] ++ (bases ++ afterBases))))
        (.enumeration ⟨lead, nameOf [.leaf token], members⟩) rest := by
    have hsplit : before ++ (mark ++ ([Tree.leaf token] ++ (bases ++ afterBases))) =
        (before ++ mark ++ .leaf token :: (bases ++ own)) ++ rest := by simp [hown]
    rw [hsplit] at hlead ⊢
    exact lays_plain place rfl (by rw [hlead]; rfl) (by simp) hword rfl
  split at h
  · rename_i opening body closing after
    simp only [Option.bind_eq_some_iff, Option.some.injEq, Prod.mk.injEq] at h
    obtain ⟨members, -, rfl, rfl⟩ := h
    obtain ⟨foot, hfoot⟩ := passEnd_suffix after
    exact hlays members (.group .curly opening body closing :: foot) _ (by rw [List.cons_append, hfoot])
  · simp only [Option.bind_eq_some_iff, Option.some.injEq, Prod.mk.injEq] at h
    obtain ⟨left, hleft, rfl, rfl⟩ := h
    obtain ⟨last, hlast⟩ := language.rest?_suffix hleft
    exact hlays [] last left hlast.symm

theorem lays_readProperty (place : Place) (lead : List Trivia) (attributes : List Attribute)
    (modifiers : List String) : LaysAfter place lead (readProperty lead attributes modifiers) := by
  intro before ts item rest hlead h
  simp only [readProperty, Option.bind_eq_bind, Option.bind_eq_some_iff, Prod.exists, Option.some.injEq,
    Prod.mk.injEq] at h
  obtain ⟨type, afterType, htype, qualifier, afterQualifier, hqualifier, name, afterName, hname, body, _, hbody, rfl,
    rfl⟩ := h
  obtain ⟨token, rfl, hword⟩ := take_kind_word hname
  obtain rfl := take_append htype
  obtain rfl := take_append hqualifier
  obtain rfl := take_append hname
  obtain rfl := take_append hbody
  have hsplit (rest : List Tree) : before ++ (type ++ (qualifier ++ ([Tree.leaf token] ++ (body ++ rest)))) =
      (before ++ type ++ qualifier ++ .leaf token :: body) ++ rest := by simp
  rw [hsplit] at hlead ⊢
  exact lays_plain place rfl (by rw [hlead]; rfl) (by simp) hword rfl

theorem lays_readOther (place : Place) (rule : Rule Part) (before : List Tree) {ts rest : List Tree} {item : Item}
    (h : readOther rule ts = some (item, rest)) : Lays place (before ++ ts) item rest := by
  obtain ⟨left, hleft, heq⟩ := Option.map_eq_some_iff.1 h
  obtain ⟨rfl, rfl⟩ := Prod.mk.inj heq
  exact lays_other ((language.rest?_suffix hleft).trans (List.suffix_append before ts))

theorem lays_readNamespace (hitems : ReadsAll .body items) (place : Place) {ts rest : List Tree} {item : Item}
    (h : readNamespace items place ts = some (item, rest)) : Lays place ts item rest := by
  simp only [readNamespace, Option.bind_eq_bind, Option.bind_eq_some_iff, Prod.exists] at h
  obtain ⟨afterMark, hmark, name, afterName, hname, h⟩ := h
  obtain ⟨mark, rfl⟩ := language.rest?_suffix hmark
  obtain rfl := take_append hname
  split at h
  · rename_i opening body closing after
    simp only [Option.bind_eq_some_iff, Option.some.injEq, Prod.mk.injEq] at h
    obtain ⟨inner, hinner, rfl, rfl⟩ := h
    obtain ⟨nodes, hnodes, hne, rfl, rfl⟩ := hitems body inner hinner
    obtain ⟨foot, hfoot⟩ := passEnd_suffix after
    exact ⟨.braced (.space _) (mark ++ name) opening nodes closing foot,
      .braced place (begins_of_declared?_eq_none rfl _) hnodes hne, rfl, by simp [Node.trees, hfoot]⟩
  · obtain ⟨left, hleft, hplace⟩ := Option.bind_eq_some_iff.1 h
    obtain ⟨last, rfl⟩ := language.rest?_suffix hleft
    clear h
    split at hplace
    · rename_i hfile
      obtain ⟨rfl, rfl⟩ := Prod.mk.inj (Option.some.inj hplace)
      subst hfile
      exact ⟨.plain (.namespaceLine _) (mark ++ name ++ last), .line _ _, rfl, by simp [Node.trees]⟩
    · cases hplace

theorem lays_readDeclaration (hitems : ReadsAll .body items) (place : Place) {ts rest : List Tree} {item : Item}
    (h : readDeclaration items place ts = some (item, rest)) : Lays place ts item rest := by
  simp only [readDeclaration, Option.bind_eq_bind, Option.bind_eq_some_iff, Prod.exists] at h
  obtain ⟨attributes, afterAttributes, hattributes, modifiers, afterModifiers, hmodifiers, h⟩ := h
  obtain ⟨lists, rfl⟩ := readAttributes_suffix hattributes
  obtain rfl := take_append hmodifiers
  have htype := lays_readType hitems place (leadOf (lists ++ (modifiers ++ afterModifiers))) (lists ++ modifiers)
    afterModifiers item rest (by rw [List.append_assoc])
  have henumeration := lays_readEnumeration place (leadOf (lists ++ (modifiers ++ afterModifiers)))
    (lists ++ modifiers) afterModifiers item rest (by rw [List.append_assoc])
  have hproperty := lays_readProperty place (leadOf (lists ++ (modifiers ++ afterModifiers))) attributes
    (modifiers.map (Tree.textOf [·])) (lists ++ modifiers) afterModifiers item rest (by rw [List.append_assoc])
  rw [List.append_assoc] at htype henumeration hproperty
  split at h
  · exact htype h
  · cases place with
    | file =>
      simp only [Option.orElse_eq_orElse, Option.orElse_eq_or, Option.or_eq_some_iff] at h
      rcases h with h | ⟨-, h | ⟨-, h | ⟨-, h⟩⟩⟩
      · exact htype h
      · exact henumeration h
      · rw [← List.append_assoc]
        exact lays_readOther .file _ _ h
      · exact lays_readOther .file _ [] h
    | body =>
      simp only [Option.orElse_eq_orElse, Option.orElse_eq_or, Option.or_eq_some_iff] at h
      rcases h with h | ⟨-, h | ⟨-, h | ⟨-, h⟩⟩⟩
      · exact htype h
      · exact henumeration h
      · exact hproperty h
      · rw [← List.append_assoc]
        exact lays_readOther .body _ _ h

theorem lays_readItem (hitems : ReadsAll .body items) (branch : List Tree → Option (List Item)) (place : Place)
    {ts rest : List Tree} {item : Item} (h : readItem items branch place ts = some (item, rest)) :
    Lays place ts item rest := by
  unfold readItem at h
  split at h
  · rename_i branches closing after
    split at h
    · exact lays_readDeclaration hitems place h
    · split at h
      · obtain ⟨rfl, rfl⟩ := Prod.mk.inj (Option.some.inj h)
        exact lays_other (List.suffix_cons _ _)
      · cases h
  · simp only [Option.orElse_eq_orElse, Option.orElse_eq_or, Option.or_eq_some_iff] at h
    rcases h with h | ⟨-, h | ⟨-, h⟩⟩
    · exact lays_readOther place _ [] h
    · exact lays_readNamespace hitems place h
    · exact lays_readDeclaration hitems place h

/-- A reader that takes nothing would be asked for the next item forever. -/
theorem readItems_of_stuck {item : Reader Item} {ts : List Tree} {first : Item} (hne : ts ≠ [])
    (h : item ts = some (first, ts)) (n : Nat) : readItems item n ts = none := by
  obtain ⟨tree, trees, rfl⟩ := List.exists_cons_of_ne_nil hne
  induction n with
  | zero => rfl
  | succ n ih => simp [readItems, h, ih]

theorem readsAll_readItems {place : Place} {item : Reader Item}
    (hitem : ∀ ts first rest, item ts = some (first, rest) → Lays place ts first rest) (n : Nat) :
    ReadsAll place (readItems item n) := by
  induction n with
  | zero =>
    intro ts list h
    cases ts with
    | nil => exact ⟨[], List.forall_mem_nil _, List.forall_mem_nil _, Option.some.inj h, rfl⟩
    | cons tree ts => cases h
  | succ n ih =>
    intro ts list h
    cases ts with
    | nil => exact ⟨[], List.forall_mem_nil _, List.forall_mem_nil _, Option.some.inj h, rfl⟩
    | cons tree ts =>
      simp only [readItems, Option.bind_eq_bind, Option.bind_eq_some_iff, Prod.exists, Option.some.injEq] at h
      obtain ⟨first, rest, hfirst, others, hothers, rfl⟩ := h
      obtain ⟨node, hnode, rfl, htrees⟩ := hitem _ first rest hfirst
      have hne : node.trees ≠ [] := by
        intro hnil
        rw [hnil, List.nil_append] at htrees
        rw [← htrees] at hfirst hothers
        simp [readItems_of_stuck (List.cons_ne_nil tree ts) hfirst n] at hothers
      obtain ⟨nodes, hnodes, hnodesne, rfl, rfl⟩ := ih rest others hothers
      exact ⟨node :: nodes, List.forall_mem_cons.2 ⟨hnode, hnodes⟩, List.forall_mem_cons.2 ⟨hne, hnodesne⟩, rfl,
        htrees.symm⟩

theorem readsAll_itemsAt (depth : Nat) (place : Place) : ReadsAll place (itemsAt depth place) := by
  induction depth generalizing place with
  | zero => intro ts list h; cases h
  | succ depth ih =>
    exact fun ts => readsAll_readItems (fun _ _ _ => lays_readItem (ih .body) (itemsAt depth place) place) ts.length ts

/-! ## Sources -/

/-- What it means that nodes are the syntax of a source: its trees are divided among them, and its items are
theirs. -/
structure IsSyntaxOf (source : List Char) (nodes : List Node) : Prop where
  trees : Tree.ofSource? source = some (Node.treesAll nodes)
  items : items? source = some (Node.items nodes)
  laidOut : ∀ node ∈ nodes, node.IsLaidOut .file
  trees_ne_nil : ∀ node ∈ nodes, node.trees ≠ []

/-- The tokens of nodes make up their trees, and the trees are read as their items. -/
theorem isSyntaxOf_of_tokens {source : List Char} {nodes : List Node}
    (htokens : Token.ofSource? source = some (Tree.tokensAll (Node.treesAll nodes)))
    (htrees : Tree.ofTokens? (Tree.tokensAll (Node.treesAll nodes)) = some (Node.treesAll nodes))
    (hitems : itemsOfTrees? (Node.treesAll nodes) = some (Node.items nodes))
    (hlaid : ∀ node ∈ nodes, node.IsLaidOut .file) (hne : ∀ node ∈ nodes, node.trees ≠ []) :
    IsSyntaxOf source nodes :=
  ⟨by rw [Tree.ofSource?, htokens, Option.bind_some, htrees],
    by rw [items?_of_tokens htokens, htrees, Option.bind_some, hitems], hlaid, hne⟩

/-- A source that breaks no rule has a syntax. -/
theorem exists_isSyntaxOf {source : List Char} {list : List Item} (h : items? source = some list) :
    ∃ nodes, IsSyntaxOf source nodes := by
  obtain ⟨ts, hts, hitems⟩ := Option.bind_eq_some_iff.1 h
  obtain ⟨nodes, hnodes, hne, rfl, rfl⟩ := readsAll_itemsAt _ .file ts list hitems
  exact ⟨nodes, hts, h, hnodes, hne⟩

end TypeBridge.Source
