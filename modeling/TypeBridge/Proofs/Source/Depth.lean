import TypeBridge.Proofs.Source.Layout

/-!
# How deep items are nested

Items are read to a depth, and what is read does not depend on it once it is as large as there can be items in each
other: what is inside of an item has fewer tokens. Types, enumerations and namespaces with braces are read in braces as
they are outside of them.

Results:
* `agreeBelow_itemsAt`: one depth and a larger one.
* `itemsAt_body`: outside of braces and in them.
-/
namespace TypeBridge.Source

/-! ## Sizes -/

namespace Tree

theorem size_le_of_suffix {ts rest : List Tree} (h : rest <:+ ts) : size rest ≤ size ts := by
  obtain ⟨before, rfl⟩ := h
  simp [size, tokensAll_append]

theorem size_body_lt (bracket : Bracket) (opening closing : Token) (body rest : List Tree) :
    size body < size (.group bracket opening body closing :: rest) := by
  simp only [size, tokensAll, tokens, List.length_append, List.length_cons]
  omega

theorem size_branch_lt {branches : List (Token × List Tree)} {branch : Token × List Tree} (h : branch ∈ branches)
    (closing : Token) (rest : List Tree) : size branch.2 < size (.conditional branches closing :: rest) := by
  obtain ⟨before, after, rfl⟩ := List.append_of_mem h
  simp only [size, tokensAll, tokens, tokensBranches_append, tokensBranches, List.length_append, List.length_cons]
  omega

end Tree

/-! ## Agreement -/

/-- What it means that two readers read the same items in trees of fewer tokens than the number says. -/
def AgreeBelow (n : Nat) (items others : List Tree → Option (List Item)) : Prop :=
  ∀ ts, Tree.size ts < n → items ts = others ts

section Agreement

variable {items others : List Tree → Option (List Item)} {n : Nat} {ts : List Tree}

theorem readType_congr (h : AgreeBelow n items others) (hts : Tree.size ts ≤ n) (lead : List Trivia) :
    readType items lead ts = readType others lead ts := by
  unfold readType
  refine Option.bind_congr ?_
  rintro ⟨kind, afterKind⟩ hkind
  refine Option.bind_congr ?_
  rintro ⟨name, afterName⟩ hname
  have hafterKind := readTypeKind_suffix hkind
  have hafterName : afterName <:+ afterKind := ⟨name, (take_append hname).symm⟩
  dsimp only
  have hparts := readHeaderParts_suffix afterName.length afterName
  generalize readHeaderParts _ _ = read at hparts ⊢
  obtain ⟨parts, afterHeader⟩ := read
  dsimp only at hparts ⊢
  have hsize := Tree.size_le_of_suffix (hparts.trans (hafterName.trans hafterKind))
  split
  · rename_i opening body closing after
    have hbody := Tree.size_body_lt .curly opening closing body after
    rw [h body (by omega)]
  · rfl

theorem readNamespace_congr (h : AgreeBelow n items others) (hts : Tree.size ts ≤ n) (place : Place) :
    readNamespace items place ts = readNamespace others place ts := by
  unfold readNamespace
  refine Option.bind_congr fun afterMark hmark => Option.bind_congr ?_
  rintro ⟨name, afterName⟩ hname
  have hafterMark := language.rest?_suffix hmark
  have hafterName : afterName <:+ afterMark := ⟨name, (take_append hname).symm⟩
  have hsize := Tree.size_le_of_suffix (hafterName.trans hafterMark)
  dsimp only
  split
  · rename_i opening body closing after
    have hbody := Tree.size_body_lt .curly opening closing body after
    rw [h body (by omega)]
  · rfl

theorem readDeclaration_congr (h : AgreeBelow n items others) (hts : Tree.size ts ≤ n) (place : Place) :
    readDeclaration items place ts = readDeclaration others place ts := by
  unfold readDeclaration
  refine Option.bind_congr ?_
  rintro ⟨attributes, afterAttributes⟩ hattributes
  refine Option.bind_congr ?_
  rintro ⟨modifiers, afterModifiers⟩ hmodifiers
  have hafterAttributes := readAttributes_suffix hattributes
  have hafterModifiers : afterModifiers <:+ afterAttributes := ⟨modifiers, (take_append hmodifiers).symm⟩
  have hsize := Tree.size_le_of_suffix (hafterModifiers.trans hafterAttributes)
  dsimp only
  rw [readType_congr h (by omega)]

theorem readItem_congr {branch otherBranch : List Tree → Option (List Item)} (h : AgreeBelow n items others)
    (hbranch : AgreeBelow n branch otherBranch) (hts : Tree.size ts ≤ n) (place : Place) :
    readItem items branch place ts = readItem others otherBranch place ts := by
  unfold readItem
  split
  · rename_i branches closing rest
    rw [readDeclaration_congr h hts]
    have hall : (branches.all fun entry => (branch entry.2).isSome) =
        branches.all fun entry => (otherBranch entry.2).isSome := by
      rw [Bool.eq_iff_iff, List.all_eq_true, List.all_eq_true]
      refine forall₂_congr ?_
      rintro ⟨opening, body⟩ hentry
      have hbody := Tree.size_branch_lt hentry closing rest
      dsimp only at hbody ⊢
      rw [hbranch body (by omega)]
    rw [hall]
  · rw [readNamespace_congr h hts, readDeclaration_congr h hts]

end Agreement

/-! ## Lists of items -/

theorem readItem_suffix {items branch : List Tree → Option (List Item)} (hitems : ReadsAll .body items) {place : Place}
    {ts rest : List Tree} {item : Item} (h : readItem items branch place ts = some (item, rest)) : rest <:+ ts := by
  obtain ⟨node, -, -, rfl⟩ := lays_readItem hitems branch place h
  exact List.suffix_append node.trees rest

theorem readItems_congr {item other : Reader Item} {ts : List Tree}
    (hsuffix : ∀ us first rest, item us = some (first, rest) → rest <:+ us) (h : ∀ us, us <:+ ts → item us = other us)
    (n : Nat) : readItems item n ts = readItems other n ts := by
  induction n generalizing ts with
  | zero => cases ts <;> rfl
  | succ n ih =>
    cases ts with
    | nil => rfl
    | cons tree ts =>
      simp only [readItems, ← h _ (List.suffix_refl _)]
      refine Option.bind_congr ?_
      rintro ⟨first, rest⟩ hfirst
      dsimp only
      rw [ih fun us hus => h us (hus.trans (hsuffix _ _ _ hfirst))]

theorem readItems_of_le {item : Reader Item} {ts : List Tree} {list : List Item} {n m : Nat}
    (h : readItems item n ts = some list) (hle : n ≤ m) : readItems item m ts = some list := by
  induction n generalizing ts list m with
  | zero =>
    cases ts with
    | nil => cases m <;> exact h
    | cons tree ts => cases h
  | succ n ih =>
    cases ts with
    | nil => cases m <;> exact h
    | cons tree ts =>
      obtain ⟨m, rfl⟩ : ∃ k, m = k + 1 := ⟨m - 1, by omega⟩
      simp only [readItems, Option.bind_eq_bind, Option.bind_eq_some_iff, Prod.exists, Option.some.injEq] at h ⊢
      obtain ⟨first, rest, hfirst, rest', hothers, rfl⟩ := h
      exact ⟨first, rest, hfirst, rest', ih hothers (by omega), rfl⟩

/-- Once the depth is more than the number of tokens it does not matter. -/
theorem agreeBelow_itemsAt (place : Place) {depth other : Nat} (h : depth ≤ other) :
    AgreeBelow depth (itemsAt depth place) (itemsAt other place) := by
  induction depth generalizing place other with
  | zero =>
    intro ts hts
    exact absurd hts (Nat.not_lt_zero _)
  | succ depth ih =>
    obtain ⟨other, rfl⟩ : ∃ k, other = k + 1 := ⟨other - 1, by omega⟩
    intro ts hts
    rw [itemsAt, itemsAt]
    -- What an item has inside of it has fewer tokens, so that one depth less is enough for it.
    refine readItems_congr (fun us first rest hfirst => readItem_suffix (readsAll_itemsAt depth .body) hfirst) ?_ _
    intro us hus
    have hsize := Tree.size_le_of_suffix hus
    exact readItem_congr (ih .body (by omega)) (ih place (by omega)) (by omega) place

/-! ## Places -/

/-- Whether an item is a type or an enumeration. -/
def Item.isDeclaration : Item → Bool
  | .type _ _ => true
  | .enumeration _ => true
  | _ => false

/-- Whether an item is a type, an enumeration or a namespace with braces. -/
def Item.isClosed : Item → Bool
  | .namespaceBlock _ _ => true
  | item => item.isDeclaration

theorem Item.isClosed_of_isDeclaration {item : Item} (h : item.isDeclaration = true) : item.isClosed = true := by
  cases item with
  | namespaceBlock => rfl
  | namespaceLine | type | enumeration | property | other => exact h

theorem not_isClosed_of_readOther {rule : Rule Part} {ts rest : List Tree} {item : Item}
    (h : readOther rule ts = some (item, rest)) : item.isClosed = false := by
  obtain ⟨_, _, heq⟩ := Option.map_eq_some_iff.1 h
  rw [← (Prod.mk.inj heq).1]
  rfl

variable {items : List Tree → Option (List Item)} {ts rest : List Tree} {item : Item}

theorem readDeclaration_body (h : readDeclaration items .file ts = some (item, rest)) (hitem : item.isClosed = true) :
    readDeclaration items .body ts = some (item, rest) := by
  simp only [readDeclaration, Option.bind_eq_bind, Option.bind_eq_some_iff, Prod.exists] at h ⊢
  obtain ⟨attributes, afterAttributes, hattributes, modifiers, afterModifiers, hmodifiers, h⟩ := h
  refine ⟨attributes, afterAttributes, hattributes, modifiers, afterModifiers, hmodifiers, ?_⟩
  split at h
  · rename_i hrecord
    rw [if_pos hrecord]
    exact h
  · rename_i hrecord
    rw [if_neg hrecord]
    simp only [Option.orElse_eq_orElse, Option.orElse_eq_or, Option.or_eq_some_iff] at h ⊢
    rcases h with h | ⟨htype, h | ⟨-, h | ⟨-, h⟩⟩⟩
    · exact .inl h
    · exact .inr ⟨htype, .inl h⟩
    · exact absurd hitem (by simp [not_isClosed_of_readOther h])
    · exact absurd hitem (by simp [not_isClosed_of_readOther h])

theorem readNamespace_body (h : readNamespace items .file ts = some (item, rest)) (hitem : item.isClosed = true) :
    readNamespace items .body ts = some (item, rest) := by
  simp only [readNamespace, Option.bind_eq_bind, Option.bind_eq_some_iff, Prod.exists] at h ⊢
  obtain ⟨afterMark, hmark, name, afterName, hname, h⟩ := h
  refine ⟨afterMark, hmark, name, afterName, hname, ?_⟩
  split at h
  · exact h
  · obtain ⟨left, -, h⟩ := Option.bind_eq_some_iff.1 h
    rw [if_pos trivial] at h
    obtain ⟨rfl, -⟩ := Prod.mk.inj (Option.some.inj h)
    cases hitem

/-- What is no namespace outside of braces is none in them. -/
theorem readNamespace_body_eq_none (h : readNamespace items .file ts = none) : readNamespace items .body ts = none := by
  simp only [readNamespace, Option.bind_eq_bind, Option.bind_eq_none_iff, Prod.forall] at h ⊢
  intro afterMark hmark name afterName hname
  have hafter := h afterMark hmark name afterName hname
  split at hafter
  · exact hafter
  · rw [Option.bind_eq_none_iff] at hafter ⊢
    intro left hleft
    rw [if_neg (by decide)]

/-- An early item of a file is a directive in braces, or something else. -/
theorem readOther_using_eq_none
    (h : readOther (.oneOf [Rules.globalAttributes, Rules.externAlias, Rules.usingDirective]) ts = none) :
    readOther Rules.usingDirective ts = none := by
  simp only [readOther, Option.map_eq_none_iff, Grammar.rest?, Rule.oneOf, Rule.run, Option.orElse_eq_or,
    Option.or_eq_none_iff] at h ⊢
  exact h.2.2

theorem readItem_body {branch otherBranch : List Tree → Option (List Item)}
    (h : readItem items branch .file ts = some (item, rest)) (hitem : item.isClosed = true) :
    readItem items otherBranch .body ts = some (item, rest) := by
  unfold readItem at h ⊢
  split at h
  · rename_i branches closing after
    dsimp only
    split at h
    · rename_i hattributes
      rw [if_pos hattributes]
      exact readDeclaration_body h hitem
    · split at h
      · obtain ⟨rfl, -⟩ := Prod.mk.inj (Option.some.inj h)
        cases hitem
      · cases h
  · simp only [Option.orElse_eq_orElse, Option.orElse_eq_or, Option.or_eq_some_iff] at h ⊢
    rcases h with h | ⟨hearly, h⟩
    · exact absurd hitem (by simp [not_isClosed_of_readOther h])
    · refine .inr ⟨readOther_using_eq_none hearly, ?_⟩
      rcases h with h | ⟨hspace, h⟩
      · exact .inl (readNamespace_body h hitem)
      · exact .inr ⟨readNamespace_body_eq_none hspace, readDeclaration_body h hitem⟩

/-- Where all items are closed, they are the same in braces: a reader of a file takes something else for an item only
when it finds no closed one. -/
theorem itemsAt_body {depth : Nat} {list : List Item} (h : itemsAt depth .file ts = some list)
    (hlist : ∀ item ∈ list, item.isClosed = true) : itemsAt depth .body ts = some list := by
  cases depth with
  | zero => cases h
  | succ depth =>
    rw [itemsAt] at h ⊢
    generalize ts.length = n at h ⊢
    induction n generalizing ts list with
    | zero => cases ts <;> exact h
    | succ n ih =>
      cases ts with
      | nil => exact h
      | cons tree ts =>
        simp only [readItems, Option.bind_eq_bind, Option.bind_eq_some_iff, Prod.exists, Option.some.injEq] at h ⊢
        obtain ⟨first, rest, hfirst, others, hothers, rfl⟩ := h
        obtain ⟨hitem, hlist⟩ := List.forall_mem_cons.1 hlist
        exact ⟨first, rest, readItem_body hfirst hitem, others, ih hlist hothers, rfl⟩

end TypeBridge.Source
