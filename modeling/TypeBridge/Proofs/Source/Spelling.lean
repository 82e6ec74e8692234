import TypeBridge.Proofs.Source.Declared
import TypeBridge.Proofs.Source.SpaceName

/-!
# The ways to write a namespace

A namespace inside of another one is written with one block in the other, with one block for both names, or with a line
before all that is in it. The same text makes the same declarations in all of these. What stands in the braces is cut,
put into trees and read as it is outside of them, and what is read does not depend on how deep it is.

Results:
* `ofSource?_spaceLine`, `ofSource?_spaceBlock`: the trees of a namespace.
* `itemsAt_spaceLine`, `itemsAt_spaceBlock`: its items.
* `unit_spellings`: all ways make the same declarations.
-/
namespace TypeBridge.Source

/-! ## Texts -/

/-- A namespace that goes on to the end of the source, as in `namespace A;`. -/
def spaceLine (name inner : String) : String := "namespace " ++ name ++ ";" ++ inner

/-- A namespace with braces. -/
def spaceBlock (name inner : String) : String := "namespace " ++ name ++ " \x7b" ++ inner ++ "\x7d"

/-- What it means that no comment at the end of a text goes on with what follows. -/
def ClosesComments (s : List Char) : Prop := ∀ ls, Lexeme.ofSource? s = some ls → ¬ Lexeme.EndsInLineComment ls

theorem closesComments_of_getLast? {s : List Char} (h : s.getLast? = some '\n') : ClosesComments s := by
  rintro ls hls ⟨r, hlast⟩
  obtain ⟨before, rfl⟩ := List.getLast?_eq_some_iff.1 hlast
  have hfeed : '\n' ∉ '/' :: '/' :: r := by
    rcases Lexeme.isCommentText_of_mem hls List.mem_concat_self rfl with ⟨body, heq⟩ | ⟨body, heq, hbody⟩
    · cases heq
    · obtain rfl := (List.cons.inj (List.cons.inj heq).2).2
      simp [hbody]
  have htexts := Lexeme.ofSource?_texts hls
  rw [List.flatMap_append, List.flatMap_singleton] at htexts
  rw [← htexts, List.getLast?_append, List.getLast?_eq_some_getLast (List.cons_ne_nil _ _)] at h
  exact hfeed (Option.some.inj h ▸ List.getLast_mem _)

/-! ## Pieces -/

namespace SpaceName

variable (name : SpaceName)

/-- The pieces of a namespace up to its name. -/
def headLexemes : List Lexeme :=
  ⟨.token .word, "namespace".toList⟩ :: ⟨.trivia .blank, [' ']⟩ :: ⟨.token .word, name.first.toList⟩ ::
    dottedLexemes name.others

/-- The tokens of a namespace up to its name, and what stands before them. -/
def headTokens (lead : List Trivia) : List Token :=
  ⟨lead, .word, "namespace"⟩ :: name.tokens [.blank " "]

/-- The trees of a namespace up to its name. -/
def headTrees (lead : List Trivia) : List Tree := (name.headTokens lead).map .leaf

theorem cuts_head {rest : List Char} (hrest : Lexeme.EndsWord rest) :
    Lexeme.Cuts ("namespace ".toList ++ name.text.toList) name.headLexemes rest := by
  have hname := name.cuts_text hrest
  have hspace : Lexeme.Cuts [' '] [⟨.trivia .blank, [' ']⟩] (name.text.toList ++ rest) := by
    obtain ⟨c, r, hfirst, hc, -⟩ := Lexeme.exists_cons_of_isWordText (name.free name.first List.mem_cons_self).1
    rw [toList_text, hfirst]
    exact Lexeme.cuts_space hc _
  have hkeyword : Lexeme.Cuts "namespace".toList [⟨.token .word, "namespace".toList⟩]
      ([' '] ++ name.text.toList ++ rest) := by
    have hparts : "amespace".toList.all Lexeme.isWordPart = true := by rfl
    exact Lexeme.cuts_word ⟨[], 'n', "amespace".toList, rfl, .inl rfl, by decide, List.all_eq_true.1 hparts⟩
      (Lexeme.endsWord_cons (by decide) _)
  exact hkeyword.append (hspace.append hname)

theorem ofLexemes_head (lead : List Trivia) (own : Bool) (more : List Lexeme) :
    Token.ofLexemes lead own (name.headLexemes ++ more) =
      name.headTokens lead.reverse ++ Token.ofLexemes [] false more := by
  have hdotted := ofLexemes_dotted name.others more
  simp only [headLexemes, headTokens, tokens, List.cons_append, Token.ofLexemes, hdotted, String.ofList_toList,
    List.reverse_cons, List.reverse_nil, List.nil_append]
  rfl

theorem role_of_mem_headTokens {lead : List Trivia} {token : Token} (h : token ∈ name.headTokens lead) :
    Tree.role token = .stands := by
  rcases List.mem_cons.1 h with rfl | h
  · rfl
  · exact name.role_of_mem_tokens h

end SpaceName

/-! ## Trees -/

namespace Tree

theorem build_leaves {tokens : List Token} (h : ∀ token ∈ tokens, role token = .stands) (stack : List Frame)
    (done : List Tree) (more : List Token) :
    build stack done (tokens ++ more) = build stack ((tokens.map .leaf).reverse ++ done) more := by
  induction tokens generalizing done with
  | nil => rfl
  | cons token tokens ih =>
    obtain ⟨htoken, htokens⟩ := List.forall_mem_cons.1 h
    rw [List.cons_append, build_stands htoken, ih htokens]
    simp

theorem build_braces {tokens : List Token} {ts : List Tree} (h : ofTokens? tokens = some ts) {opening closing : Token}
    (hopening : role opening = .opens .curly) (hclosing : role closing = .closes .curly) (stack : List Frame)
    (done : List Tree) (more : List Token) :
    build stack done (opening :: (tokens ++ closing :: more)) =
      build stack (.group .curly opening ts closing :: done) more := by
  rw [build_opens hopening, build_append h, build_closes hclosing]
  simp

end Tree

/-- Tokens are made of pieces as if the pieces ended before a token. -/
theorem Token.exists_ofLexemes_append (ls : List Lexeme) (lead : List Trivia) (own : Bool) :
    ∃ last, ∀ kind text more, ofLexemes lead own (ls ++ ⟨.token kind, text⟩ :: more) =
      ofLexemes lead own ls ++ ⟨last, kind, .ofList text⟩ :: ofLexemes [] false more := by
  induction ls generalizing lead own with
  | nil => exact ⟨lead.reverse, fun kind text more => rfl⟩
  | cons lexeme ls ih =>
    obtain ⟨kind, text⟩ := lexeme
    cases kind with
    | token kind =>
      obtain ⟨last, hlast⟩ := ih [] false
      exact ⟨last, fun other text more => congrArg (List.cons _) (hlast other text more)⟩
    | trivia kind =>
      have hrest := ih (trivia kind own (String.ofList text) :: lead)
        (kind == .blank && (own || text.contains '\n'))
      exact hrest

/-- What it means that a text before a closing brace is some trees. -/
def IsBodyOf (inner : String) (ts : List Tree) : Prop :=
  ∃ ls, (∀ rest, Lexeme.Cuts inner.toList ls ('\x7d' :: rest)) ∧
    Tree.ofTokens? (Token.ofLexemes [] false ls) = some ts

/-- After a line feed, tokens are made as at the beginning of a source. -/
theorem Token.ofLexemes_newline {s : List Char} {ls : List Lexeme} (h : Lexeme.ofSource? ('\n' :: s) = some ls) :
    ofLexemes [] false ls = ofLexemes [] true ls := by
  cases ls with
  | nil => rfl
  | cons lexeme ls =>
    obtain ⟨c, r, length, heq, hpiece, htext, -⟩ := Lexeme.exists_of_ofSource?_eq_cons h
    obtain ⟨rfl, rfl⟩ := List.cons.inj heq
    obtain ⟨kind, text⟩ := lexeme
    obtain ⟨rfl, -⟩ := Prod.mk.inj (Option.some.inj hpiece)
    dsimp only at htext
    subst htext
    simp [ofLexemes]
    rfl

theorem isBodyOf_newline {s : String} {ts : List Tree} (h : Tree.ofSource? ("\n" ++ s).toList = some ts)
    (hclosed : ClosesComments ("\n" ++ s).toList) : IsBodyOf ("\n" ++ s) ts := by
  obtain ⟨tokens, htokens, hts⟩ := Option.bind_eq_some_iff.1 h
  obtain ⟨ls, hls, rfl⟩ := Option.map_eq_some_iff.1 htokens
  refine ⟨ls, fun rest => Lexeme.cuts_of_ofSource? rest hls (hclosed ls hls), ?_⟩
  rw [String.toList_append] at hls
  rwa [Token.ofLexemes_newline hls]

variable (name : SpaceName) {inner : String} {ts : List Tree}

/-- The pieces of a namespace with braces. -/
def SpaceName.blockLexemes (ls : List Lexeme) : List Lexeme :=
  name.headLexemes ++ ⟨.trivia .blank, [' ']⟩ :: ⟨.token .mark, ['\x7b']⟩ :: (ls ++ [⟨.token .mark, ['\x7d']⟩])

theorem cuts_spaceBlock {ls : List Lexeme} {rest : List Char} (h : Lexeme.Cuts inner.toList ls ('\x7d' :: rest)) :
    Lexeme.Cuts (spaceBlock name.text inner).toList (name.blockLexemes ls) rest := by
  have hclosing : Lexeme.Cuts ['\x7d'] [⟨.token .mark, ['\x7d']⟩] rest := Lexeme.cuts_mark (by simp) rest
  have hopening : Lexeme.Cuts ['\x7b'] [⟨.token .mark, ['\x7b']⟩] (inner.toList ++ ['\x7d'] ++ rest) :=
    Lexeme.cuts_mark (by simp) _
  have hspace : Lexeme.Cuts [' '] [⟨.trivia .blank, [' ']⟩] (['\x7b'] ++ (inner.toList ++ ['\x7d']) ++ rest) :=
    Lexeme.cuts_space (by decide) _
  have hhead : Lexeme.Cuts ("namespace ".toList ++ name.text.toList) name.headLexemes
      ([' '] ++ (['\x7b'] ++ (inner.toList ++ ['\x7d'])) ++ rest) := name.cuts_head (Lexeme.endsWord_cons (by decide) _)
  have hall := hhead.append (hspace.append (hopening.append (h.append hclosing)))
  rw [spaceBlock, SpaceName.blockLexemes]
  simpa using hall

/-- The tokens of a namespace with braces. -/
theorem exists_ofLexemes_spaceBlock (ls : List Lexeme) (lead : List Trivia) (own : Bool) :
    ∃ last, ∀ more, Token.ofLexemes lead own (name.blockLexemes ls ++ more) =
      name.headTokens lead.reverse ++ ⟨[.blank " "], .mark, "\x7b"⟩ :: (Token.ofLexemes [] false ls ++
        ⟨last, .mark, "\x7d"⟩ :: Token.ofLexemes [] false more) := by
  obtain ⟨last, hlast⟩ := Token.exists_ofLexemes_append ls [] false
  refine ⟨last, fun more => ?_⟩
  rw [SpaceName.blockLexemes, List.append_assoc, SpaceName.ofLexemes_head]
  simp only [List.cons_append, List.append_assoc, List.nil_append, Token.ofLexemes, hlast]
  rfl

/-- The trees of a namespace with braces. -/
def SpaceName.blockTrees (lead : List Trivia) (ts : List Tree) (last : List Trivia) : List Tree :=
  name.headTrees lead ++ [.group .curly ⟨[.blank " "], .mark, "\x7b"⟩ ts ⟨last, .mark, "\x7d"⟩]

theorem build_spaceBlock {tokens : List Token} (h : Tree.ofTokens? tokens = some ts) (lead last : List Trivia)
    (done : List Tree) (more : List Token) :
    Tree.build [] done (name.headTokens lead ++ ⟨[.blank " "], .mark, "\x7b"⟩ :: (tokens ++
        ⟨last, .mark, "\x7d"⟩ :: more)) =
      Tree.build [] ((name.blockTrees lead ts last).reverse ++ done) more := by
  rw [Tree.build_leaves fun token => name.role_of_mem_headTokens, Tree.build_braces h rfl rfl, SpaceName.blockTrees,
    SpaceName.headTrees]
  simp

theorem ofSource?_spaceBlock (h : IsBodyOf inner ts) :
    ∃ last, Tree.ofSource? (spaceBlock name.text inner).toList = some (name.blockTrees [] ts last) := by
  obtain ⟨ls, hcuts, hts⟩ := h
  obtain ⟨last, hlast⟩ := exists_ofLexemes_spaceBlock name ls [] true
  have hcut := cuts_spaceBlock name (hcuts [])
  rw [Lexeme.Cuts, List.append_nil] at hcut
  have hbuild := build_spaceBlock name hts [] last [] []
  refine ⟨last, ?_⟩
  rw [Tree.ofSource?, Token.ofSource?, hcut]
  change Tree.build [] [] (Token.ofLexemes [] true (name.blockLexemes ls ++ [])) = _
  rw [hlast]
  exact hbuild.trans (by simp [Tree.build])

theorem isBodyOf_spaceBlock (h : IsBodyOf inner ts) :
    ∃ last, IsBodyOf (" " ++ spaceBlock name.text inner ++ " ") (name.blockTrees [.blank " "] ts last) := by
  obtain ⟨ls, hcuts, hts⟩ := h
  obtain ⟨last, hlast⟩ := exists_ofLexemes_spaceBlock name ls [.blank " "] false
  have hbuild := build_spaceBlock name hts [.blank " "] last [] []
  refine ⟨last, ⟨.trivia .blank, [' ']⟩ :: (name.blockLexemes ls ++ [⟨.trivia .blank, [' ']⟩]), fun rest => ?_, ?_⟩
  · have hafter : Lexeme.Cuts [' '] [⟨.trivia .blank, [' ']⟩] ('\x7d' :: rest) := Lexeme.cuts_space (by decide) rest
    have hblock := (cuts_spaceBlock name (hcuts ([' '] ++ '\x7d' :: rest))).append hafter
    have hbefore : Lexeme.Cuts [' '] [⟨.trivia .blank, [' ']⟩]
        ((spaceBlock name.text inner).toList ++ [' '] ++ '\x7d' :: rest) := by
      simp only [spaceBlock, String.toList_append]
      exact Lexeme.cuts_space (by decide) _
    have hall := hbefore.append hblock
    simpa using hall
  · change Tree.build [] [] (Token.ofLexemes [.blank " "] false (name.blockLexemes ls ++ [⟨.trivia .blank, [' ']⟩])) = _
    rw [hlast]
    exact hbuild.trans (by simp [Tree.build])

theorem ofSource?_spaceLine {s : String} (h : Tree.ofSource? ("\n" ++ s).toList = some ts) :
    Tree.ofSource? (spaceLine name.text ("\n" ++ s)).toList =
      some (name.headTrees [] ++ .leaf ⟨[], .mark, ";"⟩ :: ts) := by
  obtain ⟨tokens, htokens, hts⟩ := Option.bind_eq_some_iff.1 h
  obtain ⟨ls, hls, rfl⟩ := Option.map_eq_some_iff.1 htokens
  have hmark : Lexeme.Cuts [';'] [⟨.token .mark, [';']⟩] ("\n" ++ s).toList := Lexeme.cuts_mark (by simp) _
  have hhead : Lexeme.Cuts ("namespace ".toList ++ name.text.toList) name.headLexemes ([';'] ++ ("\n" ++ s).toList) :=
    name.cuts_head (Lexeme.endsWord_cons (by decide) _)
  have hcut := hhead.append hmark
  rw [Lexeme.Cuts, hls] at hcut
  have htext : (spaceLine name.text ("\n" ++ s)).toList =
      "namespace ".toList ++ name.text.toList ++ [';'] ++ ("\n" ++ s).toList := by simp [spaceLine]
  rw [htext, Tree.ofSource?, Token.ofSource?, hcut]
  rw [String.toList_append] at hls
  have hbody : Tree.build [] [] (Token.ofLexemes [] false ls) = some ts := by
    rwa [Token.ofLexemes_newline hls]
  have happend := Tree.build_append hbody [] (.leaf ⟨[], .mark, ";"⟩ :: (name.headTrees []).reverse) []
  rw [List.append_nil] at happend
  have hline : Token.ofLexemes [] true (name.headLexemes ++ [⟨.token .mark, [';']⟩] ++ ls) =
      name.headTokens [] ++ ⟨[], .mark, ";"⟩ :: Token.ofLexemes [] false ls := by
    rw [List.append_assoc, SpaceName.ofLexemes_head]
    rfl
  change Tree.build [] [] (Token.ofLexemes [] true (name.headLexemes ++ [⟨.token .mark, [';']⟩] ++ ls)) = _
  rw [hline, Tree.build_leaves fun token => name.role_of_mem_headTokens, Tree.build_stands rfl, List.append_nil,
    ← SpaceName.headTrees, happend]
  simp [Tree.build]

/-! ## Items -/

section Items

variable {items branch : List Tree → Option (List Item)} {list : List Item} {place : Place} {depth : Nat}

theorem pass_leaf (token : Token) (rest : List Tree) : pass token.text (.leaf token :: rest) = some rest := by
  rw [pass, Grammar.rest?, Rule.run_text_leaf]

/-- What begins with `namespace` is a namespace, or a declaration. -/
theorem readItem_namespace (place : Place) (lead : List Trivia) (rest : List Tree) :
    readItem items branch place (.leaf ⟨lead, .word, "namespace"⟩ :: rest) =
      (readNamespace items place (.leaf ⟨lead, .word, "namespace"⟩ :: rest) <|>
        readDeclaration items place (.leaf ⟨lead, .word, "namespace"⟩ :: rest)) := by
  have htext {text : String} (h : "namespace" ≠ text) (parts : Part → Rule.Reading) :
      Rule.run parts (.text text) (.leaf ⟨lead, .word, "namespace"⟩ :: rest) = none :=
    Rule.run_text_of_without (Rule.without_leaf h rest)
  have husing (parts : Part → Rule.Reading) :
      Rule.run parts Rules.usingDirective (.leaf ⟨lead, .word, "namespace"⟩ :: rest) = none :=
    (Rule.run_seq_of_eq_some (Rule.run_opt_of_eq_none (htext (by decide) parts))).trans
      (Rule.run_seq_of_eq_none (htext (by decide) parts))
  have halias (parts : Part → Rule.Reading) :
      Rule.run parts Rules.externAlias (.leaf ⟨lead, .word, "namespace"⟩ :: rest) = none :=
    Rule.run_seq_of_eq_none (htext (by decide) parts)
  have hattributes (parts : Part → Rule.Reading) :
      Rule.run parts Rules.globalAttributes (.leaf ⟨lead, .word, "namespace"⟩ :: rest) = none := rfl
  unfold readItem
  cases place with
  | file =>
    have hearly : readOther (.oneOf [Rules.globalAttributes, Rules.externAlias, Rules.usingDirective])
        (.leaf ⟨lead, .word, "namespace"⟩ :: rest) = none := by
      rw [readOther, Option.map_eq_none_iff]
      exact (Rule.run_choice_of_eq_none (hattributes _)).trans
        ((Rule.run_choice_of_eq_none (halias _)).trans (husing _))
    dsimp only
    rw [hearly]
    rfl
  | body =>
    have hearly : readOther Rules.usingDirective (.leaf ⟨lead, .word, "namespace"⟩ :: rest) = none := by
      rw [readOther, Option.map_eq_none_iff]
      exact husing _
    dsimp only
    rw [hearly]
    rfl

theorem endsName_group (opening closing : Token) (body rest : List Tree) :
    SpaceName.EndsName (.group .curly opening body closing :: rest) := by
  constructor <;> simp [Rule.Without]

theorem endsName_semicolon (rest : List Tree) : SpaceName.EndsName (.leaf ⟨[], .mark, ";"⟩ :: rest) :=
  ⟨Rule.without_leaf (by decide) rest, Rule.without_leaf (by decide) rest, Rule.without_leaf (by decide) rest⟩

theorem ofList_trim_textOf : .ofList (Text.trim (Tree.textOf (name.trees [.blank " "])).toList) = name.text := by
  rw [SpaceName.textOf_trees, SpaceName.trim_text, String.ofList_toList]

theorem readNamespace_block (h : items ts = some list) (place : Place) (lead last : List Trivia) :
    readNamespace items place (name.blockTrees lead ts last) = some (.namespaceBlock name.text list, []) := by
  have hpass := pass_leaf ⟨lead, .word, "namespace"⟩
    (name.trees [.blank " "] ++ [.group .curly ⟨[.blank " "], .mark, "\x7b"⟩ ts ⟨last, .mark, "\x7d"⟩])
  have hname := name.take_qualifiedName [.blank " "]
    (endsName_group ⟨[.blank " "], .mark, "\x7b"⟩ ⟨last, .mark, "\x7d"⟩ ts [])
  have hend : passEnd [] = [] := rfl
  change readNamespace items place (.leaf ⟨lead, .word, "namespace"⟩ :: (name.trees [.blank " "] ++ _)) = _
  rw [readNamespace]
  dsimp only at hpass
  rw [hpass, Option.bind_eq_bind, Option.bind_some, hname]
  simp only [Option.bind_eq_bind, Option.bind_some, h, hend, ofList_trim_textOf]

theorem readNamespace_line (lead : List Trivia) (rest : List Tree) :
    readNamespace items .file (name.headTrees lead ++ .leaf ⟨[], .mark, ";"⟩ :: rest) =
      some (.namespaceLine name.text, rest) := by
  have hpass := pass_leaf ⟨lead, .word, "namespace"⟩ (name.trees [.blank " "] ++ .leaf ⟨[], .mark, ";"⟩ :: rest)
  have hname := name.take_qualifiedName [.blank " "] (endsName_semicolon rest)
  have hend := pass_leaf ⟨[], .mark, ";"⟩ rest
  change readNamespace items .file (.leaf ⟨lead, .word, "namespace"⟩ :: (name.trees [.blank " "] ++ _)) = _
  rw [readNamespace]
  dsimp only at hpass hend
  rw [hpass, Option.bind_eq_bind, Option.bind_some, hname]
  simp only [Option.bind_eq_bind, Option.bind_some, hend, ofList_trim_textOf, if_true]

theorem readItems_cons {item : Reader Item} {first : Item} {rest : List Tree} {n : Nat} (hne : ts ≠ [])
    (hfirst : item ts = some (first, rest)) (hrest : readItems item n rest = some list) :
    readItems item (n + 1) ts = some (first :: list) := by
  obtain ⟨tree, trees, rfl⟩ := List.exists_cons_of_ne_nil hne
  simp [readItems, hfirst, hrest]

/-- The items of a namespace with braces, when those in the braces are known. -/
theorem itemsAt_spaceBlock (h : itemsAt depth .body ts = some list) (place : Place) (lead last : List Trivia) :
    itemsAt (depth + 1) place (name.blockTrees lead ts last) = some [.namespaceBlock name.text list] := by
  have hread : readItem (itemsAt depth .body) (itemsAt depth place) place (name.blockTrees lead ts last) =
      some (.namespaceBlock name.text list, []) := by
    refine (readItem_namespace place lead _).trans ?_
    exact congrArg (· <|> _) (readNamespace_block name h place lead last)
  exact readItems_cons (List.cons_ne_nil _ _) hread (by simp [readItems])

/-- The items of a source that begins with the line of a namespace, when those after the line are known. -/
theorem itemsAt_spaceLine (h : itemsAt (depth + 1) .file ts = some list) (lead : List Trivia) :
    itemsAt (depth + 1) .file (name.headTrees lead ++ .leaf ⟨[], .mark, ";"⟩ :: ts) =
      some (.namespaceLine name.text :: list) := by
  have hread : readItem (itemsAt depth .body) (itemsAt depth .file) .file
      (name.headTrees lead ++ .leaf ⟨[], .mark, ";"⟩ :: ts) = some (.namespaceLine name.text, ts) := by
    refine (readItem_namespace .file lead _).trans ?_
    exact congrArg (· <|> _) (readNamespace_line name lead ts)
  have hlength : ts.length ≤ (name.trees [.blank " "] ++ .leaf ⟨[], .mark, ";"⟩ :: ts).length := by
    rw [List.length_append, List.length_cons]
    omega
  exact readItems_cons (List.cons_ne_nil _ _) hread (readItems_of_le h hlength)

/-- With a depth that is large enough the items in braces are those of a source. -/
theorem itemsAt_of_itemsOfTrees? (h : itemsOfTrees? ts = some list) (hdepth : Tree.size ts < depth) :
    itemsAt depth .file ts = some list ∧
      ((∀ item ∈ list, item.isClosed = true) → itemsAt depth .body ts = some list) := by
  have hfile : itemsAt depth .file ts = some list :=
    (agreeBelow_itemsAt .file hdepth ts (Nat.lt_succ_self _)).symm.trans h
  exact ⟨hfile, fun hlist => itemsAt_body hfile hlist⟩

theorem size_lt_blockTrees (lead last : List Trivia) : Tree.size ts < Tree.size (name.blockTrees lead ts last) := by
  have hgroup := Tree.size_body_lt .curly ⟨[.blank " "], .mark, "\x7b"⟩ ⟨last, .mark, "\x7d"⟩ ts []
  exact hgroup.trans_le (Tree.size_le_of_suffix (List.suffix_append _ _))

end Items

/-! ## Declarations -/

section Units

variable {usual : String} {items : List Item}

theorem unitOfAll_namespaceBlock (outer current : Option String) (name : String) :
    unitOfAll usual outer current [.namespaceBlock name items] =
      unitOfAll usual (some (qualify outer name)) (some (qualify outer name)) items := by
  simp [unitOfAll, unitOf, append]

/-- Types and enumerations do not know the braces of which namespace they are in. -/
theorem unitOfAll_of_isDeclaration (h : ∀ item ∈ items, item.isDeclaration = true)
    (outer other current : Option String) :
    unitOfAll usual outer current items = unitOfAll usual other current items := by
  induction items with
  | nil => rfl
  | cons item items ih =>
    obtain ⟨hitem, hitems⟩ := List.forall_mem_cons.1 h
    have hline : ∀ name, item ≠ .namespaceLine name := by
      rintro name rfl
      cases hitem
    have hblock : ∀ name inner, item ≠ .namespaceBlock name inner := by
      rintro name inner rfl
      cases hitem
    rw [unitOfAll_cons hline, unitOfAll_cons hline, unitOf_eq hblock, unitOf_eq hblock, ih hitems]

end Units

variable (A B : SpaceName) {s : String} {list : List Item}

theorem items?_spaceBlock (hitems : items? ("\n" ++ s).toList = some list)
    (hclosed : ClosesComments ("\n" ++ s).toList) (hlist : ∀ item ∈ list, item.isClosed = true) :
    items? (spaceBlock name.text ("\n" ++ s)).toList = some [.namespaceBlock name.text list] := by
  obtain ⟨ts, hts, hlistAt⟩ := Option.bind_eq_some_iff.1 hitems
  obtain ⟨last, hblock⟩ := ofSource?_spaceBlock name (isBodyOf_newline hts hclosed)
  rw [items?, hblock, Option.bind_some, itemsOfTrees?]
  have hbody := (itemsAt_of_itemsOfTrees? hlistAt (size_lt_blockTrees name [] last)).2 hlist
  exact itemsAt_spaceBlock name hbody .file [] last

theorem items?_spaceBlocks (hitems : items? ("\n" ++ s).toList = some list)
    (hclosed : ClosesComments ("\n" ++ s).toList) (hlist : ∀ item ∈ list, item.isClosed = true) :
    items? (spaceBlock A.text (" " ++ spaceBlock B.text ("\n" ++ s) ++ " ")).toList =
      some [.namespaceBlock A.text [.namespaceBlock B.text list]] := by
  obtain ⟨ts, hts, hlistAt⟩ := Option.bind_eq_some_iff.1 hitems
  obtain ⟨inner, hinner⟩ := isBodyOf_spaceBlock B (isBodyOf_newline hts hclosed)
  obtain ⟨last, hblock⟩ := ofSource?_spaceBlock A hinner
  rw [items?, hblock, Option.bind_some, itemsOfTrees?]
  have hsize : Tree.size ts < Tree.size (B.blockTrees [.blank " "] ts inner) := size_lt_blockTrees B _ _
  have houter : Tree.size (B.blockTrees [.blank " "] ts inner) <
      Tree.size (A.blockTrees [] (B.blockTrees [.blank " "] ts inner) last) := size_lt_blockTrees A _ _
  obtain ⟨depth, hdepth⟩ := Nat.exists_eq_add_one_of_ne_zero (Nat.ne_zero_of_lt houter)
  rw [hdepth] at houter ⊢
  have hdeep : Tree.size ts < depth := by omega
  have hbody := (itemsAt_of_itemsOfTrees? hlistAt hdeep).2 hlist
  exact itemsAt_spaceBlock A (itemsAt_spaceBlock B hbody .body [.blank " "] inner) .file [] last

theorem items?_spaceLine (hitems : items? ("\n" ++ s).toList = some list) :
    items? (spaceLine name.text ("\n" ++ s)).toList = some (.namespaceLine name.text :: list) := by
  obtain ⟨ts, hts, hlistAt⟩ := Option.bind_eq_some_iff.1 hitems
  rw [items?, ofSource?_spaceLine name hts, Option.bind_some, itemsOfTrees?]
  have hsuffix : ts <:+ name.headTrees [] ++ .leaf ⟨[], .mark, ";"⟩ :: ts :=
    (List.suffix_cons _ ts).trans (List.suffix_append _ _)
  have hsize := Nat.lt_succ_of_le (Tree.size_le_of_suffix hsuffix)
  exact itemsAt_spaceLine name (itemsAt_of_itemsOfTrees? hlistAt hsize).1 []

theorem unit?_of_items? {options : Options} {source : String} (h : items? source.toList = some list) :
    unit? options source = some (unitOfAll options.defaultNamespace none none list) := by
  rw [unit?, h, Option.map_some]

/-- A text of types and enumerations makes the same declarations after the line of a namespace inside of another one, in
one block for both names, and in two blocks; the blocks make the same declarations also of a text with further blocks.
The text begins on a line of its own, and no comment at its end goes on with the brace after it. -/
theorem unit_spellings (options : Options) (hitems : items? ("\n" ++ s).toList = some list)
    (hclosed : ClosesComments ("\n" ++ s).toList) :
    ((∀ item ∈ list, item.isDeclaration = true) → ∃ unit,
      unit? options (spaceLine (A.text ++ "." ++ B.text) ("\n" ++ s)) = some unit ∧
        unit? options (spaceBlock (A.text ++ "." ++ B.text) ("\n" ++ s)) = some unit ∧
        unit? options (spaceBlock A.text (" " ++ spaceBlock B.text ("\n" ++ s) ++ " ")) = some unit) ∧
      ((∀ item ∈ list, item.isClosed = true) → ∃ unit,
        unit? options (spaceBlock (A.text ++ "." ++ B.text) ("\n" ++ s)) = some unit ∧
          unit? options (spaceBlock A.text (" " ++ spaceBlock B.text ("\n" ++ s) ++ " ")) = some unit) := by
  let usual := options.defaultNamespace
  let space := A.text ++ "." ++ B.text
  have hspace : (A.dot B).text = space := A.text_dot B
  -- All of them are the declarations of the items in the one namespace that both names make.
  have hblocks (hlist : ∀ item ∈ list, item.isClosed = true) :
      unit? options (spaceBlock space ("\n" ++ s)) = some (unitOfAll usual (some space) (some space) list) ∧
        unit? options (spaceBlock A.text (" " ++ spaceBlock B.text ("\n" ++ s) ++ " ")) =
          some (unitOfAll usual (some space) (some space) list) := by
    have hdotted := items?_spaceBlock (A.dot B) hitems hclosed hlist
    rw [hspace] at hdotted
    rw [unit?_of_items? hdotted, unit?_of_items? (items?_spaceBlocks A B hitems hclosed hlist),
      unitOfAll_namespaceBlock, unitOfAll_namespaceBlock, unitOfAll_namespaceBlock]
    exact ⟨rfl, rfl⟩
  have hline : unit? options (spaceLine space ("\n" ++ s)) = some (unitOfAll usual none (some space) list) := by
    have hdotted := items?_spaceLine (A.dot B) hitems
    rw [hspace] at hdotted
    rw [unit?_of_items? hdotted]
    rfl
  refine ⟨fun hlist => ?_, fun hlist => ⟨_, hblocks hlist⟩⟩
  refine ⟨_, ?_, hblocks fun item hitem => Item.isClosed_of_isDeclaration (hlist item hitem)⟩
  rw [hline, unitOfAll_of_isDeclaration hlist none (some space)]

def outerName : SpaceName := ⟨"Outer", [], List.forall_mem_singleton.2 (isFreeWord_of_toList rfl rfl rfl rfl)⟩

def innerName : SpaceName :=
  ⟨"Inner", ["Deep"], List.forall_mem_cons.2
    ⟨isFreeWord_of_toList rfl rfl rfl rfl, List.forall_mem_singleton.2 (isFreeWord_of_toList rfl rfl rfl rfl)⟩⟩

/-- A type with a comment, and an enumeration in it. -/
def spelledText : String := "/// first\nclass X \x7b enum E \x7b V \x7d \x7d\n"

def spelledTokens : List Token := [
  ⟨[.blank "\n", .comment "/// first" true, .blank "\n"], .word, "class"⟩, spaced .word "X", spaced .mark "\x7b",
  spaced .word "enum", spaced .word "E", spaced .mark "\x7b", spaced .word "V", spaced .mark "\x7d",
  spaced .mark "\x7d"]

def spelledItems : List Item := [
  .type { lead := [.blank "\n", .comment "/// first" true, .blank "\n"], kind := .classType, name := "X" }
    [.enumeration ⟨[.blank " "], "E", ["V"]⟩]]

theorem unit_spellings_spelledText :
    items? ("\n" ++ spelledText).toList = some spelledItems ∧ ClosesComments ("\n" ++ spelledText).toList ∧
      (∀ item ∈ spelledItems, item.isDeclaration = true) ∧ ∃ unit,
        unit? {} (spaceLine (outerName.text ++ "." ++ innerName.text) ("\n" ++ spelledText)) = some unit ∧
          unit? {} (spaceBlock (outerName.text ++ "." ++ innerName.text) ("\n" ++ spelledText)) = some unit ∧
          unit? {} (spaceBlock outerName.text (" " ++ spaceBlock innerName.text ("\n" ++ spelledText) ++ " ")) =
            some unit := by
  have htokens : Token.ofSource? ("\n" ++ spelledText).toList = some spelledTokens := by decide +kernel
  have hitems : items? ("\n" ++ spelledText).toList = some spelledItems := by
    rw [items?_of_tokens htokens]
    rfl
  have hclosed : ClosesComments ("\n" ++ spelledText).toList := closesComments_of_getLast? rfl
  have hlist : ∀ item ∈ spelledItems, item.isDeclaration = true := List.forall_mem_singleton.2 rfl
  exact ⟨hitems, hclosed, hlist, (unit_spellings outerName innerName {} hitems hclosed).1 hlist⟩

end TypeBridge.Source
