import TypeBridge.Source.Reader

/-!
# Where the items of a source come from

What the items of a source keep is taken from its trees as it is: each name is that of a word, what stands before an
item is what stands before a tree, and each attribute is read from trees that stand together. Rules and readers leave
over an end of the trees, so all that is read after them comes from the same trees.

Results:
* `Tree.Within.tokensAll_infix`: trees that stand together.
* `Rule.run_leavesEnd`, `Grammar.rest?_suffix`: what rules leave over.
* `makes_readDeclaration`, `makes_readItem`, `makesAll_itemsAt`: one item, and all of them.
* `items?_of_tokens`, `isMadeOf_items?`: the items of a source.
-/
namespace TypeBridge.Source

/-! ## Tokens of trees -/

namespace Tree

theorem tokensAll_append (ts us : List Tree) : tokensAll (ts ++ us) = tokensAll ts ++ tokensAll us := by
  induction ts with
  | nil => rfl
  | cons tree ts ih => rw [List.cons_append, tokensAll, tokensAll, ih, List.append_assoc]

theorem tokensBranches_append (branches others : List (Token × List Tree)) :
    tokensBranches (branches ++ others) = tokensBranches branches ++ tokensBranches others := by
  induction branches with
  | nil => rfl
  | cons branch branches ih => simp [tokensBranches, ih]

theorem tokensAll_infix {ts part : List Tree} (h : part <:+: ts) : tokensAll part <:+: tokensAll ts := by
  obtain ⟨before, after, rfl⟩ := h
  exact ⟨tokensAll before, tokensAll after, by rw [tokensAll_append, tokensAll_append]⟩

theorem tokensAll_infix_of_mem {tree : Tree} {ts : List Tree} (h : tree ∈ ts) : tokens tree <:+: tokensAll ts := by
  obtain ⟨before, after, rfl⟩ := List.append_of_mem h
  exact ⟨tokensAll before, tokensAll after, by simp [tokensAll_append, tokensAll]⟩

/-- What it means that some trees stand one after another among others, or in a group there, however deep. -/
inductive Within (root : List Tree) : List Tree → Prop
  | root : Within root root
  | run {ts part : List Tree} : Within root ts → part <:+: ts → Within root part
  | body {bracket : Bracket} {opening closing : Token} {body ts : List Tree} :
      Within root ts → .group bracket opening body closing ∈ ts → Within root body

/-- The tokens of such trees stand one after another, too. -/
theorem Within.tokensAll_infix {root ts : List Tree} (h : Within root ts) : tokensAll ts <:+: tokensAll root := by
  induction h with
  | root => exact List.infix_rfl
  | run _ hpart ih => exact (Tree.tokensAll_infix hpart).trans ih
  | @body bracket opening closing body ts _ hmem ih =>
    have hbody : tokensAll body <:+: tokens (.group bracket opening body closing) :=
      ⟨[opening], [closing], by simp [tokens]⟩
    exact (hbody.trans (tokensAll_infix_of_mem hmem)).trans ih

theorem toList_textOf {trees : List Tree} {token : Token} {rest : List Token} (h : tokensAll trees = token :: rest) :
    (textOf trees).toList = token.text.toList ++ rest.flatMap (·.written.toList) := by
  simp only [textOf, h]
  rw [String.toList_append, String.toList_join, List.flatMap_map]

theorem first_mem_tokensAll (tree : Tree) (rest : List Tree) : tree.first ∈ tokensAll (tree :: rest) := by
  rw [tokensAll]
  refine List.mem_append_left _ ?_
  match tree with
  | .leaf token => exact List.mem_singleton_self token
  | .group _ opening _ _ => exact List.mem_append_left _ List.mem_cons_self
  | .conditional [] closing => exact List.mem_singleton_self closing
  | .conditional ((opening, _) :: _) _ => exact List.mem_append_left _ List.mem_cons_self

end Tree

/-! ## Rules -/

namespace Rule

variable {α : Type}

/-- Whether a reading leaves over an end of the trees. -/
def Reading.LeavesEnd (reading : Reading) : Prop := ∀ ts rest, reading ts = some rest → rest <:+ ts

theorem Reading.repeated_suffix {reading : Reading} (h : reading.LeavesEnd) (n : Nat) (ts : List Tree) :
    reading.repeated n ts <:+ ts := by
  induction n generalizing ts with
  | zero => exact List.suffix_refl ts
  | succ n ih =>
    rw [repeated]
    split
    · rename_i rest hrest
      split
      · exact (ih rest).trans (h ts rest hrest)
      · exact List.suffix_refl ts
    · exact List.suffix_refl ts

/-- Rules leave over an end of the trees when the parts of the grammar do. -/
theorem run_leavesEnd {parts : α → Reading} (hparts : ∀ p, (parts p).LeavesEnd) (rule : Rule α) :
    (run parts rule).LeavesEnd := by
  induction rule with
  | nothing =>
    intro ts rest h
    obtain rfl := Option.some.inj h
    exact List.suffix_refl ts
  | text s | kind k | name | group bracket body _ | anyGroup bracket | conditional branch _ =>
    intro ts rest h
    unfold run at h
    split at h
    · split at h
      · obtain rfl := Option.some.inj h
        exact List.suffix_cons _ _
      · cases h
    · cases h
  | adjacent =>
    intro ts rest h
    unfold run at h
    split at h
    · split at h
      · obtain rfl := Option.some.inj h
        exact List.suffix_refl _
      · cases h
    · cases h
  | part p => exact hparts p
  | seq first second hfirst hsecond =>
    intro ts rest h
    obtain ⟨middle, hmiddle, hrest⟩ := Option.bind_eq_some_iff.1 h
    exact (hsecond middle rest hrest).trans (hfirst ts middle hmiddle)
  | choice first second hfirst hsecond =>
    intro ts rest h
    rw [run, Option.orElse_eq_or] at h
    rcases Option.or_eq_some_iff.1 h with h | ⟨-, h⟩
    · exact hfirst ts rest h
    · exact hsecond ts rest h
  | many rule ih =>
    intro ts rest h
    obtain rfl := Option.some.inj h
    exact Reading.repeated_suffix ih ts.length ts
  | absent rule _ =>
    intro ts rest h
    unfold run at h
    split at h
    · cases h
    · obtain rfl := Option.some.inj h
      exact List.suffix_refl ts

end Rule

namespace Grammar

variable {α : Type} (grammar : Grammar α)

theorem read_leavesEnd (depth : Nat) (p : α) : Rule.Reading.LeavesEnd (grammar.read depth p) := by
  induction depth generalizing p with
  | zero => intro ts rest h; cases h
  | succ depth ih => exact Rule.run_leavesEnd ih (grammar.rule p)

theorem rest?_suffix {rule : Rule α} {ts rest : List Tree} (h : grammar.rest? rule ts = some rest) :
    rest <:+ ts :=
  Rule.run_leavesEnd (grammar.read_leavesEnd _) rule ts rest h

/-- What a rule takes and what it leaves over are together all trees. -/
theorem split?_eq_some {rule : Rule α} {ts taken rest : List Tree}
    (h : grammar.split? rule ts = some (taken, rest)) : grammar.rest? rule ts = some rest ∧ ts = taken ++ rest := by
  obtain ⟨rest, hrest, heq⟩ := Option.map_eq_some_iff.1 h
  obtain ⟨rfl, rfl⟩ := Prod.mk.inj heq
  obtain ⟨before, rfl⟩ := grammar.rest?_suffix hrest
  exact ⟨hrest, by simp⟩

end Grammar

/-! ## Items inside of items -/

/-- The items inside of an item. -/
def Item.inner : Item → List Item
  | .namespaceBlock _ items => items
  | .type _ items => items
  | _ => []

/-- To prove something of all items, it may be assumed of the items inside of an item. -/
@[elab_as_elim]
theorem Item.induction {motive : Item → Prop}
    (step : ∀ item : Item, (∀ inner ∈ item.inner, motive inner) → motive item) (item : Item) : motive item :=
  Item.rec (motive_2 := fun items => ∀ inner ∈ items, motive inner)
    (fun name items ih => step (.namespaceBlock name items) ih)
    (fun name => step (.namespaceLine name) (List.forall_mem_nil _))
    (fun header items ih => step (.type header items) ih)
    (fun declaration => step (.enumeration declaration) (List.forall_mem_nil _))
    (fun property => step (.property property) (List.forall_mem_nil _))
    (step .other (List.forall_mem_nil _))
    (List.forall_mem_nil _)
    (fun _ _ first rest => List.forall_mem_cons.2 ⟨first, rest⟩) item

/-! ## What items are made of -/

/-- Whether a name is that of a word among some trees. -/
def IsWordOf (root : List Tree) (name : String) : Prop :=
  ∃ token, Tree.Within root [.leaf token] ∧ token.kind = .word ∧ name = nameOf [.leaf token]

/-- Whether something stands before some of these trees. -/
def IsLeadOf (root : List Tree) (lead : List Trivia) : Prop := ∃ ts, Tree.Within root ts ∧ lead = leadOf ts

/-- Whether an attribute is read from some of these trees. -/
def IsAttributeOf (root : List Tree) (applied : Attribute) : Prop :=
  ∃ trees, Tree.Within root trees ∧ attributeOf trees = some applied

/-- What it means that what a parameter keeps comes from some trees. -/
structure Parameter.IsMadeOf (root : List Tree) (parameter : Parameter) : Prop where
  name : IsWordOf root parameter.name
  attributes : ∀ applied ∈ parameter.attributes, IsAttributeOf root applied

/-- What it means that all that an item keeps comes from some trees. -/
inductive Item.IsMadeOf (root : List Tree) : Item → Prop
  | namespaceBlock (name : String) {items : List Item} :
      (∀ item ∈ items, IsMadeOf root item) → IsMadeOf root (.namespaceBlock name items)
  | namespaceLine (name : String) : IsMadeOf root (.namespaceLine name)
  | type {header : TypeHeader} {items : List Item} :
      IsWordOf root header.name → IsLeadOf root header.lead →
      (∀ parameter ∈ header.parameters, parameter.IsMadeOf root) →
      (∀ item ∈ items, IsMadeOf root item) → IsMadeOf root (.type header items)
  | enumeration {declaration : EnumerationSyntax} :
      IsWordOf root declaration.name → IsLeadOf root declaration.lead →
      IsMadeOf root (.enumeration declaration)
  | property {property : Property} :
      IsWordOf root property.name → IsLeadOf root property.lead →
      (∀ applied ∈ property.attributes, IsAttributeOf root applied) → IsMadeOf root (.property property)
  | other : IsMadeOf root .other

/-! ## Readers -/

variable {root : List Tree}

/-- What it means that a reader makes items of some trees when it reads trees that stand together there, and leaves
over such trees. -/
def Makes (root : List Tree) (reader : Reader Item) : Prop :=
  ∀ ts item rest, Tree.Within root ts → reader ts = some (item, rest) → Tree.Within root rest ∧ item.IsMadeOf root

/-- The same of something that reads all items in some trees. -/
def MakesAll (root : List Tree) (items : List Tree → Option (List Item)) : Prop :=
  ∀ ts list, Tree.Within root ts → items ts = some list → ∀ item ∈ list, item.IsMadeOf root

section Taking

variable {rule : Rule Part} {ts taken rest : List Tree}

theorem tail_within {tree : Tree} (hts : Tree.Within root (tree :: rest)) : Tree.Within root rest :=
  hts.run (List.suffix_cons tree rest).isInfix

theorem body_within {bracket : Bracket} {opening closing : Token} {body : List Tree}
    (hts : Tree.Within root (.group bracket opening body closing :: rest)) : Tree.Within root body :=
  hts.body List.mem_cons_self

theorem rest?_within (hts : Tree.Within root ts) (h : language.rest? rule ts = some rest) :
    Tree.Within root rest :=
  hts.run (language.rest?_suffix h).isInfix

theorem take_within (hts : Tree.Within root ts) (h : take rule ts = some (taken, rest)) :
    Tree.Within root taken ∧ Tree.Within root rest := by
  obtain ⟨hrest, heq⟩ := language.split?_eq_some h
  exact ⟨hts.run (heq ▸ (List.prefix_append taken rest).isInfix), rest?_within hts hrest⟩

theorem isLeadOf_leadOf (hts : Tree.Within root ts) : IsLeadOf root (leadOf ts) := ⟨ts, hts, rfl⟩

theorem take_kind_word (h : take (.kind .word) ts = some (taken, rest)) :
    ∃ token, taken = [.leaf token] ∧ token.kind = .word := by
  obtain ⟨hrest, heq⟩ := language.split?_eq_some h
  unfold Grammar.rest? Rule.run at hrest
  split at hrest
  · rename_i token _
    split at hrest
    · rename_i hword
      obtain rfl := Option.some.inj hrest
      exact ⟨token, (List.append_cancel_right heq).symm, hword⟩
    · cases hrest
  · cases hrest

theorem isWordOf_take_kind (hts : Tree.Within root ts)
    (h : take (.kind .word) ts = some (taken, rest)) : IsWordOf root (nameOf taken) := by
  obtain ⟨token, rfl, hword⟩ := take_kind_word h
  exact ⟨token, (take_within hts h).1, hword, rfl⟩

/-- A name is a word. -/
theorem rest?_word_of_name (h : language.rest? .name ts = some rest) :
    language.rest? (.kind .word) ts = some rest := by
  unfold Grammar.rest? Rule.run at h ⊢
  split at h
  · split at h
    · rename_i hname
      have hword := (Bool.and_eq_true_iff.1 hname).1
      exact (if_pos (eq_of_beq hword)).trans h
    · cases h
  · cases h

theorem isWordOf_take_name (hts : Tree.Within root ts) (h : take .name ts = some (taken, rest)) :
    IsWordOf root (nameOf taken) := by
  obtain ⟨left, hleft, heq⟩ := Option.map_eq_some_iff.1 h
  have htake : take (.kind .word) ts = some (taken, rest) :=
    Option.map_eq_some_iff.2 ⟨left, rest?_word_of_name hleft, heq⟩
  exact isWordOf_take_kind hts htake

end Taking

section Lists

theorem itemsOf_within {rule : Rule Part} {n : Nat} {ts item : List Tree} (hts : Tree.Within root ts)
    (h : item ∈ itemsOf rule n ts) : Tree.Within root item := by
  induction n generalizing ts with
  | zero => cases h
  | succ n ih =>
    unfold itemsOf at h
    split at h
    · cases h
    · rename_i first rest hfirst
      obtain ⟨htaken, hrest⟩ := take_within hts hfirst
      split at h
      · exact List.mem_singleton.1 h ▸ htaken
      · rename_i after hafter
        rcases List.mem_cons.1 h with rfl | h
        · exact htaken
        · exact ih (rest?_within hrest hafter) h

end Lists

/-! ## Attributes and parameters -/

theorem isAttributeOf_of_mem_attributesIn {tree : Tree} {ts : List Tree} {applied : Attribute}
    (hts : Tree.Within root ts) (htree : tree ∈ ts) (h : applied ∈ attributesIn tree) :
    IsAttributeOf root applied := by
  unfold attributesIn at h
  split at h
  · rename_i bracket opening body closing
    have hbody : Tree.Within root ((language.rest? Rules.attributeTarget body).getD body) := by
      cases htarget : language.rest? Rules.attributeTarget body with
      | none => exact hts.body htree
      | some rest => exact rest?_within (hts.body htree) htarget
    obtain ⟨trees, htrees, happlied⟩ := List.mem_filterMap.1 h
    exact ⟨trees, itemsOf_within hbody htrees, happlied⟩
  · cases h

theorem readAttributes_within {ts rest : List Tree} {read : List Attribute} (hts : Tree.Within root ts)
    (h : readAttributes ts = some (read, rest)) :
    Tree.Within root rest ∧ ∀ applied ∈ read, IsAttributeOf root applied := by
  simp only [readAttributes, Option.bind_eq_bind, Option.bind_eq_some_iff, Prod.exists, Option.some.injEq,
    Prod.mk.injEq] at h
  obtain ⟨lists, left, htake, rfl, rfl⟩ := h
  obtain ⟨hlists, hleft⟩ := take_within hts htake
  refine ⟨hleft, fun applied happlied => ?_⟩
  obtain ⟨tree, htree, hmem⟩ := List.mem_flatMap.1 happlied
  exact isAttributeOf_of_mem_attributesIn hlists htree hmem

theorem isMadeOf_parameterOf {trees : List Tree} {parameter : Parameter} (htrees : Tree.Within root trees)
    (h : parameterOf trees = some parameter) : parameter.IsMadeOf root := by
  simp only [parameterOf, Option.bind_eq_bind, Option.bind_eq_some_iff, Prod.exists] at h
  obtain ⟨attributes, rest, hattributes, h⟩ := h
  obtain ⟨hrest, hread⟩ := readAttributes_within htrees hattributes
  split at h
  · cases h
  · split at h
    · rename_i type name htyped
      obtain rfl := Option.some.inj h
      simp only [Option.bind_eq_some_iff, Prod.exists, Option.some.injEq, Prod.mk.injEq] at htyped
      obtain ⟨_, afterModifiers, hmodifiers, _, afterType, htype, _, _, hname, -, rfl⟩ := htyped
      have hafter := (take_within hrest hmodifiers).2
      exact ⟨isWordOf_take_name (take_within hafter htype).2 hname, hread⟩
    · simp only [Option.bind_eq_some_iff, Prod.exists, Option.some.injEq] at h
      obtain ⟨_, _, hname, rfl⟩ := h
      exact ⟨isWordOf_take_name hrest hname, hread⟩

/-- What it means that the parameters in a part of a header are made of some trees. -/
def HeaderPart.IsMadeOf (part : HeaderPart) (root : List Tree) : Prop :=
  ∀ parameters, part.parameters? = some parameters → ∀ parameter ∈ parameters, parameter.IsMadeOf root

theorem readHeaderPart_made {part : HeaderPart} {ts rest : List Tree} (hts : Tree.Within root ts)
    (h : readHeaderPart ts = some (part, rest)) : Tree.Within root rest ∧ part.IsMadeOf root := by
  unfold readHeaderPart at h
  split at h
  · split at h
    all_goals
      simp only [Option.bind_eq_bind, Option.bind_eq_some_iff, Prod.exists, Option.some.injEq, Prod.mk.injEq] at h
      obtain ⟨_, _, htake, rfl, rfl⟩ := h
      exact ⟨(take_within hts htake).2, fun _ hparameters => nomatch hparameters⟩
  · rename_i opening body closing after
    simp only [Option.bind_eq_bind, Option.bind_eq_some_iff, Prod.exists, Option.some.injEq, Prod.mk.injEq] at h
    obtain ⟨_, _, htake, rfl, rfl⟩ := h
    refine ⟨(take_within hts htake).2, fun parameters hparameters parameter hparameter => ?_⟩
    obtain rfl := Option.some.inj hparameters
    obtain ⟨trees, htrees, hparameter⟩ := List.mem_filterMap.1 hparameter
    exact isMadeOf_parameterOf (itemsOf_within (body_within hts) htrees) hparameter
  · cases h

theorem readHeaderParts_made {ts : List Tree} (n : Nat) (hts : Tree.Within root ts) :
    Tree.Within root (readHeaderParts n ts).2 ∧ ∀ part ∈ (readHeaderParts n ts).1, part.IsMadeOf root := by
  induction n generalizing ts with
  | zero => exact ⟨hts, List.forall_mem_nil _⟩
  | succ n ih =>
    rw [readHeaderParts]
    split
    · rename_i part rest hpart
      obtain ⟨hrest, hmade⟩ := readHeaderPart_made hts hpart
      obtain ⟨hleft, hparts⟩ := ih hrest
      exact ⟨hleft, List.forall_mem_cons.2 ⟨hmade, hparts⟩⟩
    · exact ⟨hts, List.forall_mem_nil _⟩

/-- Only the first list of parameters counts, and it is one of the parts. -/
theorem isMadeOf_of_mem_headerOf (lead : List Trivia) (kind : TypeKind) (name : String) {parts : List HeaderPart}
    (hparts : ∀ part ∈ parts, part.IsMadeOf root) :
    ∀ parameter ∈ (headerOf lead kind name parts).parameters, parameter.IsMadeOf root := by
  intro parameter hparameter
  cases hfirst : parts.findSome? HeaderPart.parameters? with
  | none =>
    simp only [headerOf, hfirst, Option.getD_none, List.not_mem_nil] at hparameter
  | some parameters =>
    simp only [headerOf, hfirst, Option.getD_some] at hparameter
    obtain ⟨part, hpart, hparameters⟩ := List.exists_of_findSome?_eq_some hfirst
    exact hparts part hpart parameters hparameters parameter hparameter

/-! ## Types and enumerations -/

theorem readTypeKind_within {ts rest : List Tree} {kind : TypeKind} (hts : Tree.Within root ts)
    (h : readTypeKind ts = some (kind, rest)) : Tree.Within root rest := by
  obtain ⟨⟨rule, other⟩, -, hrule⟩ := List.exists_of_findSome?_eq_some h
  obtain ⟨left, hleft, heq⟩ := Option.map_eq_some_iff.1 hrule
  obtain ⟨-, rfl⟩ := Prod.mk.inj heq
  exact rest?_within hts hleft

theorem passEnd_within {ts : List Tree} (hts : Tree.Within root ts) :
    Tree.Within root (passEnd ts) := by
  unfold passEnd
  cases h : pass ";" ts with
  | none => exact hts
  | some rest => exact rest?_within hts h

theorem makes_readType {items : List Tree → Option (List Item)} (hitems : MakesAll root items)
    {lead : List Trivia} (hlead : IsLeadOf root lead) : Makes root (readType items lead) := by
  intro ts item rest hts h
  simp only [readType, Option.bind_eq_bind, Option.bind_eq_some_iff, Prod.exists] at h
  obtain ⟨kind, afterKind, hkind, name, afterName, hname, h⟩ := h
  have hafterKind := readTypeKind_within hts hkind
  have hword := isWordOf_take_kind hafterKind hname
  obtain ⟨hafterHeader, hparts⟩ := readHeaderParts_made afterName.length (take_within hafterKind hname).2
  generalize readHeaderParts afterName.length afterName = read at h hafterHeader hparts
  obtain ⟨parts, afterHeader⟩ := read
  dsimp only at h hafterHeader hparts
  have hparameters := isMadeOf_of_mem_headerOf lead kind (nameOf name) hparts
  split at h
  · rename_i opening body closing after
    simp only [Option.bind_eq_some_iff, Option.some.injEq, Prod.mk.injEq] at h
    obtain ⟨inner, hinner, rfl, rfl⟩ := h
    have hinner := hitems body inner (body_within hafterHeader) hinner
    exact ⟨passEnd_within (tail_within hafterHeader), .type hword hlead hparameters hinner⟩
  · simp only [Option.bind_eq_some_iff, Option.some.injEq, Prod.mk.injEq] at h
    obtain ⟨left, hleft, rfl, rfl⟩ := h
    exact ⟨rest?_within hafterHeader hleft, .type hword hlead hparameters (List.forall_mem_nil _)⟩

theorem makes_readEnumeration {lead : List Trivia} (hlead : IsLeadOf root lead) :
    Makes root (readEnumeration lead) := by
  intro ts item rest hts h
  simp only [readEnumeration, Option.bind_eq_bind, Option.bind_eq_some_iff, Prod.exists] at h
  obtain ⟨afterMark, hmark, name, afterName, hname, _, afterBases, hbases, h⟩ := h
  have hafterMark := rest?_within hts hmark
  have hword := isWordOf_take_kind hafterMark hname
  have hafterBases := (take_within (take_within hafterMark hname).2 hbases).2
  split at h
  · rename_i opening body closing after
    simp only [Option.bind_eq_some_iff, Option.some.injEq, Prod.mk.injEq] at h
    obtain ⟨members, -, rfl, rfl⟩ := h
    exact ⟨passEnd_within (tail_within hafterBases), .enumeration hword hlead⟩
  · simp only [Option.bind_eq_some_iff, Option.some.injEq, Prod.mk.injEq] at h
    obtain ⟨left, hleft, rfl, rfl⟩ := h
    exact ⟨rest?_within hafterBases hleft, .enumeration hword hlead⟩

/-! ## Items -/

theorem makes_readProperty {lead : List Trivia} (hlead : IsLeadOf root lead) {attributes : List Attribute}
    (hattributes : ∀ applied ∈ attributes, IsAttributeOf root applied) (modifiers : List String) :
    Makes root (readProperty lead attributes modifiers) := by
  intro ts item rest hts h
  simp only [readProperty, Option.bind_eq_bind, Option.bind_eq_some_iff, Prod.exists, Option.some.injEq,
    Prod.mk.injEq] at h
  obtain ⟨_, _, htype, _, _, hqualifier, _, _, hname, _, _, hbody, rfl, rfl⟩ := h
  have hafterType := (take_within hts htype).2
  have hafterQualifier := (take_within hafterType hqualifier).2
  have hafterName := (take_within hafterQualifier hname).2
  exact ⟨(take_within hafterName hbody).2, .property (isWordOf_take_kind hafterQualifier hname) hlead hattributes⟩

theorem makes_readOther (rule : Rule Part) : Makes root (readOther rule) := by
  intro ts item rest hts h
  obtain ⟨left, hleft, heq⟩ := Option.map_eq_some_iff.1 h
  obtain ⟨rfl, rfl⟩ := Prod.mk.inj heq
  exact ⟨rest?_within hts hleft, .other⟩

theorem makes_readNamespace {items : List Tree → Option (List Item)} (hitems : MakesAll root items)
    (place : Place) : Makes root (readNamespace items place) := by
  intro ts item rest hts h
  simp only [readNamespace, Option.bind_eq_bind, Option.bind_eq_some_iff, Prod.exists] at h
  obtain ⟨afterMark, hmark, _, afterName, hname, h⟩ := h
  have hafterName := (take_within (rest?_within hts hmark) hname).2
  split at h
  · rename_i opening body closing after
    simp only [Option.bind_eq_some_iff, Option.some.injEq, Prod.mk.injEq] at h
    obtain ⟨inner, hinner, rfl, rfl⟩ := h
    have hinner := hitems body inner (body_within hafterName) hinner
    exact ⟨passEnd_within (tail_within hafterName), .namespaceBlock _ hinner⟩
  · obtain ⟨left, hleft, h⟩ := Option.bind_eq_some_iff.1 h
    split at h
    · obtain ⟨rfl, rfl⟩ := Prod.mk.inj (Option.some.inj h)
      exact ⟨rest?_within hafterName hleft, .namespaceLine _⟩
    · cases h

/-- Of two readers that make items, the second one reads what the first one does not. -/
theorem Makes.orElse {first second : Reader Item} (hfirst : Makes root first) (hsecond : Makes root second) :
    Makes root fun ts => first ts <|> second ts := by
  intro ts item rest hts h
  simp only [Option.orElse_eq_orElse, Option.orElse_eq_or, Option.or_eq_some_iff] at h
  rcases h with h | ⟨-, h⟩
  · exact hfirst ts item rest hts h
  · exact hsecond ts item rest hts h

theorem makes_readDeclaration {items : List Tree → Option (List Item)} (hitems : MakesAll root items)
    (place : Place) : Makes root (readDeclaration items place) := by
  intro ts item rest hts h
  have hlead := isLeadOf_leadOf hts
  simp only [readDeclaration, Option.bind_eq_bind, Option.bind_eq_some_iff, Prod.exists] at h
  obtain ⟨attributes, afterAttributes, hattributes, modifiers, afterModifiers, hmodifiers, h⟩ := h
  obtain ⟨hafterAttributes, hread⟩ := readAttributes_within hts hattributes
  have hafter := (take_within hafterAttributes hmodifiers).2
  have htype := makes_readType hitems hlead
  have henumeration := makes_readEnumeration hlead
  split at h
  · exact htype _ _ _ hafter h
  · cases place with
    | file =>
      simp only [Option.orElse_eq_orElse, Option.orElse_eq_or, Option.or_eq_some_iff] at h
      rcases h with h | ⟨-, h | ⟨-, h | ⟨-, h⟩⟩⟩
      · exact htype _ _ _ hafter h
      · exact henumeration _ _ _ hafter h
      · exact makes_readOther _ _ _ _ hafter h
      · exact makes_readOther _ _ _ _ hts h
    | body =>
      exact (htype.orElse (henumeration.orElse ((makes_readProperty hlead hread _).orElse
        (makes_readOther _)))) _ _ _ hafter h

theorem makes_readItem {items : List Tree → Option (List Item)} (hitems : MakesAll root items)
    (branch : List Tree → Option (List Item)) (place : Place) :
    Makes root (readItem items branch place) := by
  intro ts item rest hts h
  unfold readItem at h
  split at h
  · rename_i branches closing after
    split at h
    · exact makes_readDeclaration hitems place _ _ _ hts h
    · split at h
      · obtain ⟨rfl, rfl⟩ := Prod.mk.inj (Option.some.inj h)
        exact ⟨tail_within hts, .other⟩
      · cases h
  · exact ((makes_readOther _).orElse ((makes_readNamespace hitems place).orElse
      (makes_readDeclaration hitems place))) _ _ _ hts h

theorem makesAll_readItems {item : Reader Item} (hitem : Makes root item) (n : Nat) :
    MakesAll root (readItems item n) := by
  induction n with
  | zero =>
    intro ts list hts h
    cases ts with
    | nil => exact Option.some.inj h ▸ List.forall_mem_nil _
    | cons tree ts => cases h
  | succ n ih =>
    intro ts list hts h
    cases ts with
    | nil => exact Option.some.inj h ▸ List.forall_mem_nil _
    | cons tree ts =>
      simp only [readItems, Option.bind_eq_bind, Option.bind_eq_some_iff, Prod.exists, Option.some.injEq] at h
      obtain ⟨first, rest, hfirst, others, hothers, rfl⟩ := h
      obtain ⟨hrest, hmade⟩ := hitem _ first rest hts hfirst
      exact List.forall_mem_cons.2 ⟨hmade, ih rest others hrest hothers⟩

theorem makesAll_itemsAt (depth : Nat) (place : Place) : MakesAll root (itemsAt depth place) := by
  induction depth generalizing place with
  | zero => intro ts list hts h; cases h
  | succ depth ih =>
    intro ts list hts h
    exact makesAll_readItems (makes_readItem (ih .body) (itemsAt depth place) place) _ ts list hts h

/-! ## Trees -/

namespace Tree

/-- The tokens before what is being built, when it is inside of some frames. -/
def tokensBefore : List Frame → List Token
  | [] => []
  | .group before _ opening :: stack => tokensBefore stack ++ tokensAll before.reverse ++ [opening]
  | .conditional before ended opening :: stack =>
    tokensBefore stack ++ tokensAll before.reverse ++ tokensBranches ended.reverse ++ [opening]

theorem build_tokens {stack : List Frame} {done : List Tree} {rest : List Token} {ts : List Tree}
    (h : build stack done rest = some ts) :
    tokensAll ts = tokensBefore stack ++ tokensAll done.reverse ++ rest := by
  -- Each step moves one token from the rest to what is done or to a frame, so the right side stays the same.
  fun_induction build stack done rest with
  | case1 stack done hempty =>
    obtain rfl := Option.some.inj h
    simp [List.isEmpty_iff.1 hempty, tokensBefore]
  | case2 | case6 | case9 | case11 => cases h
  | case3 stack done token rest _ ih => simpa [tokensAll_append, tokensAll, tokens] using ih h
  | case4 stack done token rest bracket _ ih => simpa [tokensBefore, tokensAll] using ih h
  | case5 done token rest before opened opening stack _ ih =>
    simpa [tokensBefore, tokensAll_append, tokensAll, tokens] using ih h
  | case7 stack done token rest _ ih => simpa [tokensBefore, tokensAll, tokensBranches] using ih h
  | case8 done token rest before ended opening stack _ ih =>
    simpa [tokensBefore, tokensAll_append, tokensBranches_append, tokensAll, tokens, tokensBranches] using ih h
  | case10 done token rest mark before ended opening stack _ _ _ _ ih =>
    simpa [tokensBefore, tokensBranches_append, tokensAll, tokensBranches] using ih h

/-- The trees of some tokens hold these and no others, in their order. -/
theorem tokensAll_ofTokens? {tokens : List Token} {ts : List Tree} (h : ofTokens? tokens = some ts) :
    tokensAll ts = tokens :=
  build_tokens h

end Tree

/-- A token after a space. -/
def spaced (kind : Token.Kind) (text : String) : Token := ⟨[.blank " "], kind, text⟩

/-- A source is read by its tokens alone. -/
theorem items?_of_tokens {source : List Char} {tokens : List Token} (h : Token.ofSource? source = some tokens) :
    items? source = (Tree.ofTokens? tokens).bind itemsOfTrees? := by
  rw [items?, Tree.ofSource?, h, Option.bind_some]

/-- All that the items of a source keep comes from its trees. -/
theorem isMadeOf_items? {source : List Char} {items : List Item} (h : items? source = some items) :
    ∃ root, Tree.ofSource? source = some root ∧ ∀ item ∈ items, item.IsMadeOf root := by
  obtain ⟨root, hroot, hitems⟩ := Option.bind_eq_some_iff.1 h
  exact ⟨root, hroot, makesAll_itemsAt _ .file root items .root hitems⟩

end TypeBridge.Source
