import TypeBridge.Output.Declaration
import TypeBridge.Proofs.Source.StringLiteral
import TypeBridge.Proofs.Source.Written
import TypeBridge.Proofs.Text.Trim

/-!
# Arguments of attributes

An argument that is one regular or verbatim literal stands for the text between its quotes, every other one for itself.
What is kept of an argument is decided by its first and its last characters alone. So quotes are missing from two kinds
of arguments: from several tokens that begin and end with quotes of different literals, and from raw literals.

Results:
* `unquote_eq_self_iff`: when quotes are taken away.
* `trim_textOf`, `isMistaken_iff_isQuoted`: the texts of arguments in a source.
* `keptOf_eq_iff`, `deprecation_eq_iff`: one argument, and the message that a member is deprecated.
* `arguments_kept_iff`: the arguments of all attributes in a source.
-/
namespace TypeBridge.Source

open Literal (IsPlain IsQuoted IsRaw)

/-! ## Quotes -/

section Unquote

variable {s : List Char}

theorem unquote_regular (inner : List Char) : unquote ('"' :: (inner ++ ['"'])) = inner := by simp [unquote]

theorem unquote_verbatim (inner : List Char) : unquote ('@' :: '"' :: (inner ++ ['"'])) = inner := by simp [unquote]

theorem unquote_of_isPlain {inner : List Char} (h : IsPlain s inner) : unquote s = inner := by
  cases h with
  | regular => exact unquote_regular inner
  | verbatim => exact unquote_verbatim inner

theorem length_unquote_lt (h : IsQuoted s) : (unquote s).length < s.length := by
  cases h with
  | regular inner =>
    rw [unquote_regular, List.length_cons, List.length_append]
    omega
  | verbatim inner =>
    rw [unquote_verbatim, List.length_cons, List.length_cons, List.length_append]
    omega

theorem isQuoted_of_unquote_ne (h : unquote s ≠ s) : IsQuoted s := by
  unfold unquote at h
  dsimp only at h
  split at h
  · rename_i r
    split at h
    · rename_i hlast
      obtain ⟨inner, rfl⟩ := List.getLast?_eq_some_iff.1 hlast
      exact .verbatim inner
    · exact absurd rfl h
  · rename_i r
    split at h
    · rename_i hlast
      obtain ⟨inner, rfl⟩ := List.getLast?_eq_some_iff.1 hlast
      exact .regular inner
    · exact absurd rfl h
  · exact absurd rfl h

theorem unquote_eq_self_iff : unquote s = s ↔ ¬ IsQuoted s := by
  refine ⟨fun heq hquoted => ?_, fun h => by_contra fun hne => h (isQuoted_of_unquote_ne hne)⟩
  exact (length_unquote_lt hquoted).ne (congrArg List.length heq)

theorem isQuoted_of_isRaw (h : IsRaw s) (hlast : s.getLast? = some '"') : IsQuoted s := by
  obtain ⟨rest, rfl⟩ := h
  have hrest : ('"' :: '"' :: rest).getLast? = some '"' := hlast
  obtain ⟨inner, hinner⟩ := List.getLast?_eq_some_iff.1 hrest
  have heq : ['"', '"', '"'] ++ rest = '"' :: (inner ++ ['"']) := congrArg ('"' :: ·) hinner
  rw [heq]
  exact .regular inner

/-- Nothing is trimmed of what ends in text, so it is not the same as something shorter that is trimmed. -/
theorem trimEnd_append_ne {kept : List Char} (hend : EndsInText s) (hlength : kept.length < s.length)
    (first : List Char) : Text.trimEnd (first ++ kept) ≠ Text.trimEnd (first ++ s) := by
  intro heq
  rw [trimEnd_of_endsInText (hend.append_left first)] at heq
  have hle := (Text.prefix_trimEnd (first ++ kept)).length_le
  rw [heq, List.length_append, List.length_append] at hle
  omega

end Unquote

/-! ## Expressions -/

/-- The expressions that the arguments of an attribute are. -/
def argumentsOf (trees : List Tree) : List (List Tree) :=
  itemsIn Rules.attributeArgument (bodyOf ((language.rest? Rules.qualifiedName trees).getD []))

/-- What is kept of an argument. -/
def keptOf (expression : List Tree) : String := .ofList (unquote (Text.trim (Tree.textOf expression).toList))

/-- What an argument stands for: a regular or a verbatim literal for the text between its quotes, everything else for
itself, as it is written. -/
inductive StandsFor (expression : List Tree) : String → Prop
  | literal {token : Token} {inner : List Char} :
      Tree.tokensAll expression = [token] → IsPlain token.text.toList inner → StandsFor expression (.ofList inner)
  | other :
      (∀ token inner, Tree.tokensAll expression = [token] → ¬ IsPlain token.text.toList inner) →
      StandsFor expression (Tree.textOf expression)

/-- What it means that an argument is taken for a regular or a verbatim literal and is none: it is several tokens that
begin and end as such a literal, or a raw one. -/
inductive IsMistaken (expression : List Tree) : Prop
  | several : 2 ≤ (Tree.tokensAll expression).length → IsQuoted (Tree.textOf expression).toList → IsMistaken expression
  | raw {token : Token} :
      Tree.tokensAll expression = [token] → IsRaw token.text.toList → token.text.toList.getLast? = some '"' →
      IsMistaken expression

section Expression

variable {expression : List Tree}

theorem exists_standsFor (expression : List Tree) : ∃ text, StandsFor expression text := by
  by_cases h : ∃ token inner, Tree.tokensAll expression = [token] ∧ IsPlain token.text.toList inner
  · obtain ⟨token, inner, htoken, hplain⟩ := h
    exact ⟨_, .literal htoken hplain⟩
  · exact ⟨_, .other fun token inner htoken hplain => h ⟨token, inner, htoken, hplain⟩⟩

theorem toList_textOf_singleton {token : Token} (h : Tree.tokensAll expression = [token]) :
    (Tree.textOf expression).toList = token.text.toList := by
  rw [Tree.toList_textOf h, List.flatMap_nil, List.append_nil]

theorem not_isMistaken_of_isPlain {token : Token} {inner : List Char} (htoken : Tree.tokensAll expression = [token])
    (hplain : IsPlain token.text.toList inner) : ¬ IsMistaken expression := by
  intro h
  cases h with
  | several hlength => simp [htoken] at hlength
  | raw hsame hraw =>
    obtain rfl := List.singleton_inj.1 (htoken.symm.trans hsame)
    exact hplain.not_isRaw hraw

end Expression

theorem arguments_of_attributeOf {trees : List Tree} {applied : Attribute} (h : attributeOf trees = some applied) :
    applied.arguments = (argumentsOf trees).map keptOf := by
  obtain ⟨⟨name, rest⟩, htake, heq⟩ := Option.bind_eq_some_iff.1 h
  obtain ⟨hrest, -⟩ := language.split?_eq_some htake
  obtain rfl := Option.some.inj heq
  rw [argumentsOf, hrest]
  rfl

/-! ## Expressions in a source -/

theorem Tree.Within.isPlaced {root ts : List Tree} (h : Tree.Within root ts) (hroot : ∀ tree ∈ root, tree.IsPlaced) :
    ∀ tree ∈ ts, tree.IsPlaced := by
  induction h with
  | root => exact hroot
  | run _ hpart ih => exact fun tree htree => ih tree (hpart.subset htree)
  | body _ hmem ih =>
    cases ih _ hmem with
    | group _ hbody _ => exact hbody

section Within

variable {source : List Char} {root expression trees : List Tree}

theorem argumentsOf_within (hwithin : Tree.Within root trees) (h : expression ∈ argumentsOf trees) :
    Tree.Within root expression := by
  have hnil : Tree.Within root [] := hwithin.run (List.nil_infix)
  have hrest : Tree.Within root ((language.rest? Rules.qualifiedName trees).getD []) := by
    cases hname : language.rest? Rules.qualifiedName trees with
    | none => exact hnil
    | some rest => exact rest?_within hwithin hname
  refine itemsOf_within ?_ h
  unfold bodyOf
  split
  · rename_i heq
    rw [heq] at hrest
    exact body_within hrest
  · exact hnil

variable (hroot : Tree.ofSource? source = some root) (hwithin : Tree.Within root expression)

include hroot hwithin

/-- The tokens of an expression are tokens of the source, and no directive is the last of them. -/
theorem tokens_of_within :
    ∃ tokens, Token.ofSource? source = some tokens ∧ (∀ token ∈ Tree.tokensAll expression, token ∈ tokens) ∧
      Tree.EndsOutside (Tree.tokensAll expression) := by
  obtain ⟨tokens, htokens, htrees⟩ := Option.bind_eq_some_iff.1 hroot
  refine ⟨tokens, htokens, ?_, ?_⟩
  · rw [← Tree.tokensAll_ofTokens? htrees]
    exact fun token htoken => hwithin.tokensAll_infix.subset htoken
  · have hnil : Tree.EndsOutside [] := fun token h => by cases h
    exact Tree.endsOutside_append_tokensAll hnil (hwithin.isPlaced (Tree.isPlaced_of_mem_ofTokens? htrees))

theorem endsInText_textOf (hne : Tree.tokensAll expression ≠ []) : EndsInText (Tree.textOf expression).toList := by
  obtain ⟨tokens, htokens, hmem, hend⟩ := tokens_of_within hroot hwithin
  obtain ⟨token, rest, heq⟩ := List.exists_cons_of_ne_nil hne
  rw [Tree.toList_textOf heq]
  rw [heq] at hmem hend
  rcases List.eq_nil_or_concat' rest with rfl | ⟨rest, last, rfl⟩
  · rw [List.flatMap_nil, List.append_nil]
    exact Token.endsInText_of_mem htokens (hmem token List.mem_cons_self) (hend token rfl)
  · have houtside : Tree.IsOutside last := hend last (by rw [← List.cons_append, List.getLast?_concat])
    have hlast := Token.endsInText_of_mem htokens (hmem last (by simp)) houtside
    rw [List.flatMap_append, List.flatMap_singleton, Token.written, String.toList_append]
    exact ((hlast.append_left _).append_left _).append_left _

/-- There are no blanks around an expression. -/
theorem trim_textOf : Text.trim (Tree.textOf expression).toList = (Tree.textOf expression).toList := by
  by_cases hne : Tree.tokensAll expression = []
  · have hnil : Tree.textOf expression = "" := by rw [Tree.textOf, hne]
    rw [hnil]
    rfl
  · obtain ⟨c, hlast, hc⟩ := endsInText_textOf hroot hwithin hne
    obtain ⟨tokens, htokens, hmem, -⟩ := tokens_of_within hroot hwithin
    obtain ⟨token, rest, heq⟩ := List.exists_cons_of_ne_nil hne
    obtain ⟨d, r, htext, hd⟩ := Token.beginsInText_of_mem htokens (hmem token (heq ▸ List.mem_cons_self))
    refine Text.trimEdges_eq_self ⟨?_, ?_⟩
    · rw [Tree.toList_textOf heq, htext]
      simpa using hd
    · rw [hlast]
      simpa using hc

theorem toList_keptOf : (keptOf expression).toList = unquote (Tree.textOf expression).toList := by
  rw [keptOf, trim_textOf hroot hwithin, String.toList_ofList]

/-- Of what is no regular or verbatim literal, mistaken is what begins and ends as one. -/
theorem isMistaken_iff_isQuoted
    (hother : ∀ token inner, Tree.tokensAll expression = [token] → ¬ IsPlain token.text.toList inner) :
    IsMistaken expression ↔ IsQuoted (Tree.textOf expression).toList := by
  constructor
  · intro h
    cases h with
    | several _ hquoted => exact hquoted
    | raw htoken hraw hlast =>
      rw [toList_textOf_singleton htoken]
      exact isQuoted_of_isRaw hraw hlast
  · intro hquoted
    obtain ⟨tokens, htokens, hmem, -⟩ := tokens_of_within hroot hwithin
    match heq : Tree.tokensAll expression with
    | [] =>
      rw [Tree.textOf, heq] at hquoted
      cases hquoted.two_le_length
    | [token] =>
      rw [toList_textOf_singleton heq] at hquoted
      have htoken := hmem token (heq ▸ List.mem_cons_self)
      rcases Token.isPlain_of_isQuoted htokens htoken hquoted with ⟨inner, hplain⟩ | hraw
      · exact absurd hplain (hother token inner heq)
      · exact .raw heq hraw hquoted.getLast?
    | _ :: _ :: _ => exact .several (by simp [heq]) hquoted

/-- What is kept of an argument is what it stands for, but of those that are taken for literals and are none. -/
theorem keptOf_eq_iff {text : String} (h : StandsFor expression text) :
    keptOf expression = text ↔ ¬ IsMistaken expression := by
  rw [String.ext_iff, toList_keptOf hroot hwithin]
  cases h with
  | literal htoken hplain =>
    rw [toList_textOf_singleton htoken, unquote_of_isPlain hplain, String.toList_ofList]
    exact iff_of_true rfl (not_isMistaken_of_isPlain htoken hplain)
  | other hother => rw [isMistaken_iff_isQuoted hroot hwithin hother, unquote_eq_self_iff]

/-- The message that a member is deprecated is what the first argument stands for under the same condition. -/
theorem deprecation_eq_iff {options : Options} {member : Member} {applied : Attribute} {text : String}
    (happlied : member.attribute? options.obsoleteAttributes = some applied)
    (hfirst : applied.arguments.head? = some (keptOf expression)) (h : StandsFor expression text) :
    Output.deprecation options member = [.ofList (Text.trimEnd ("@deprecated " ++ text).toList)] ↔
      ¬ IsMistaken expression := by
  have hkept : Output.deprecation options member =
      [.ofList (Text.trimEnd ("@deprecated " ++ keptOf expression).toList)] := by
    rw [Output.deprecation, happlied]
    dsimp only
    rw [List.headD_eq_head?_getD, hfirst, Option.getD_some]
  rw [hkept, ← keptOf_eq_iff hroot hwithin h]
  refine ⟨fun heq => ?_, fun heq => by rw [heq]⟩
  by_contra hne
  -- The expression is itself the text, and ends in a quote, so no blanks are trimmed and the message is too short.
  cases h with
  | literal htoken hplain =>
    exact hne ((keptOf_eq_iff hroot hwithin (.literal htoken hplain)).2 (not_isMistaken_of_isPlain htoken hplain))
  | other hother =>
    rw [keptOf_eq_iff hroot hwithin (.other hother), not_not, isMistaken_iff_isQuoted hroot hwithin hother] at hne
    have hmessage := String.ofList_injective (List.singleton_inj.1 heq)
    rw [String.toList_append, String.toList_append, toList_keptOf hroot hwithin] at hmessage
    exact trimEnd_append_ne ⟨'"', hne.getLast?, by decide⟩ (length_unquote_lt hne) _ hmessage

end Within

/-! ## Attributes in a source -/

/-- What it means that all attributes of the members of some declarations are read from some trees. -/
def ReadsAttributesOf (root : List Tree) (unit : SourceUnit) : Prop :=
  ∀ placed ∈ TypeDeclaration.placedAll [] unit.types, ∀ member ∈ placed.type.members,
    ∀ applied ∈ member.attributes, IsAttributeOf root applied

section Members

variable {root : List Tree}

theorem isAttributeOf_members {header : TypeHeader} {items : List Item}
    (h : Item.IsMadeOf root (.type header items)) :
    ∀ member ∈ header.parameters.map Parameter.member ++ items.filterMap (Item.member? header.kind),
      ∀ applied ∈ member.attributes, IsAttributeOf root applied := by
  cases h with
  | type _ _ hparameters hitems =>
    rw [List.forall_mem_append, List.forall_mem_map]
    refine ⟨fun parameter hmem => (hparameters parameter hmem).attributes, fun member hmem => ?_⟩
    obtain ⟨item, hitem, hmember⟩ := List.mem_filterMap.1 hmem
    cases hitems item hitem with
    | property _ _ hattributes =>
      rw [Item.member?] at hmember
      split at hmember
      · obtain rfl := Option.some.inj hmember
        exact hattributes
      · cases hmember
    | namespaceBlock | namespaceLine | type | enumeration | other => cases hmember

theorem readsAttributesOf_declarations {item : Item} (h : item.IsMadeOf root) (space : String) :
    ReadsAttributesOf root ⟨typesOf space item, enumerationsOf space item⟩ := by
  intro placed hplaced
  obtain ⟨header, items, hmade, htype⟩ := exists_of_mem_typesOf h space [] placed hplaced
  rw [typesOf] at htype
  rw [← (List.cons.inj htype).1]
  exact isAttributeOf_members hmade

theorem ReadsAttributesOf.append {first second : SourceUnit} (hfirst : ReadsAttributesOf root first)
    (hsecond : ReadsAttributesOf root second) : ReadsAttributesOf root (append first second) := by
  rw [ReadsAttributesOf, Source.append, TypeDeclaration.placedAll_append]
  exact List.forall_mem_append.2 ⟨hfirst, hsecond⟩

end Members

/-- The attributes of all members come from the trees of the source. -/
theorem readsAttributesOf_unit? {options : Options} {source : String} {unit : SourceUnit}
    (hunit : unit? options source = some unit) :
    ∃ root, Tree.ofSource? source.toList = some root ∧ ReadsAttributesOf root unit := by
  obtain ⟨items, hitems, rfl⟩ := Option.map_eq_some_iff.1 hunit
  obtain ⟨root, hroot, hmade⟩ := isMadeOf_items? hitems
  exact ⟨root, hroot, unitOfAll_of_isMadeOf (List.forall_mem_nil _) (fun _ _ => ReadsAttributesOf.append)
    (fun space _ hitem => readsAttributesOf_declarations hitem space) _ hmade none none⟩

/-- Of the arguments of the attributes in a source, those are kept as what they stand for that are not mistaken for
literals, and a member is marked as deprecated with what the first argument stands for, under the same condition. -/
theorem arguments_kept_iff {options : Options} {source : String} {unit : SourceUnit}
    (hunit : unit? options source = some unit) :
    ∃ root, Tree.ofSource? source.toList = some root ∧
      ReadsAttributesOf root unit ∧
      ∀ trees applied, Tree.Within root trees → attributeOf trees = some applied →
        List.Forall₂ (fun expression argument =>
          (∃ text, StandsFor expression text) ∧
            ∀ text, StandsFor expression text → (argument = text ↔ ¬ IsMistaken expression))
          (argumentsOf trees) applied.arguments ∧
        ∀ member : Member, member.attribute? options.obsoleteAttributes = some applied →
          ∀ expression, (argumentsOf trees).head? = some expression → ∀ text, StandsFor expression text →
            (Output.deprecation options member = [.ofList (Text.trimEnd ("@deprecated " ++ text).toList)] ↔
              ¬ IsMistaken expression) := by
  obtain ⟨root, hroot, hattributes⟩ := readsAttributesOf_unit? hunit
  refine ⟨root, hroot, hattributes, fun trees applied hwithin happlied => ?_⟩
  have harguments := arguments_of_attributeOf happlied
  refine ⟨?_, fun member hmember expression hfirst text htext => ?_⟩
  · rw [harguments, List.forall₂_map_right_iff, List.forall₂_same]
    intro expression hexpression
    refine ⟨exists_standsFor expression, fun text htext => ?_⟩
    exact keptOf_eq_iff hroot (argumentsOf_within hwithin hexpression) htext
  · refine deprecation_eq_iff hroot (argumentsOf_within hwithin (List.mem_of_head? hfirst)) hmember ?_ htext
    rw [harguments, List.head?_map, hfirst]
    rfl

/-- Two literals, put together. -/
def concatenation : List Tree :=
  [.leaf ⟨[], .string, "\"a\""⟩, .leaf ⟨[.blank " "], .mark, "+"⟩, .leaf ⟨[.blank " "], .string, "\"b\""⟩]

def concatenationAttribute : List Tree :=
  [.leaf ⟨[], .word, "Obsolete"⟩, .group .round ⟨[], .mark, "("⟩ concatenation ⟨[], .mark, ")"⟩]

def concatenationSource : String := "class A \x7b [Obsolete(\"a\" + \"b\")] public int B \x7b get; \x7d \x7d"

def concatenationBody : List Tree :=
  [.group .square ⟨[.blank " "], .mark, "["⟩ concatenationAttribute ⟨[], .mark, "]"⟩,
    .leaf ⟨[.blank " "], .word, "public"⟩, .leaf ⟨[.blank " "], .word, "int"⟩, .leaf ⟨[.blank " "], .word, "B"⟩,
    .group .curly ⟨[.blank " "], .mark, "\x7b"⟩
      [.leaf ⟨[.blank " "], .word, "get"⟩, .leaf ⟨[], .mark, ";"⟩] ⟨[.blank " "], .mark, "\x7d"⟩]

def concatenationRoot : List Tree :=
  [.leaf ⟨[], .word, "class"⟩, .leaf ⟨[.blank " "], .word, "A"⟩,
    .group .curly ⟨[.blank " "], .mark, "\x7b"⟩ concatenationBody ⟨[.blank " "], .mark, "\x7d"⟩]

def concatenationMember : Member :=
  { name := "B", type := "int", attributes := [{ name := "Obsolete", arguments := ["a\" + \"b"] }] }

theorem arguments_concatenationSource :
    unit? {} concatenationSource =
        some { types := [{ name := "A", namespaceName := "Global", members := [concatenationMember] }] } ∧
      argumentsOf concatenationAttribute = [concatenation] ∧ StandsFor concatenation "\"a\" + \"b\"" ∧
      ∃ applied, attributeOf concatenationAttribute = some applied ∧ applied ∈ concatenationMember.attributes ∧
        applied.arguments ≠ ["\"a\" + \"b\""] ∧
        Output.deprecation {} concatenationMember ≠ ["@deprecated \"a\" + \"b\""] := by
  have htokens : Token.ofSource? concatenationSource.toList = some (Tree.tokensAll concatenationRoot) := by
    decide +kernel
  have hroot : Tree.ofSource? concatenationSource.toList = some concatenationRoot := by
    rw [Tree.ofSource?, htokens]
    rfl
  have hunit : unit? {} concatenationSource =
      some { types := [{ name := "A", namespaceName := "Global", members := [concatenationMember] }] } := by
    rw [unit?, items?, hroot]
    rfl
  have hwithin : Tree.Within concatenationRoot concatenationAttribute := by
    have hbody : Tree.Within concatenationRoot concatenationBody :=
      Tree.Within.root.body (List.mem_cons_of_mem _ (List.mem_cons_of_mem _ (List.mem_singleton_self _)))
    exact hbody.body List.mem_cons_self
  have happlied : attributeOf concatenationAttribute =
      some { name := "Obsolete", arguments := ["a\" + \"b"] } := by decide +kernel
  have harguments : argumentsOf concatenationAttribute = [concatenation] := rfl
  have hstands : StandsFor concatenation "\"a\" + \"b\"" := .other fun token inner htoken => by cases htoken
  have hmistaken : IsMistaken concatenation := .several (by decide) (.regular "a\" + \"b".toList)
  obtain ⟨root, hsame, -, hall⟩ := arguments_kept_iff hunit
  obtain rfl := Option.some.inj (hroot.symm.trans hsame)
  obtain ⟨hkept, hmessage⟩ := hall concatenationAttribute _ hwithin happlied
  rw [harguments] at hkept hmessage
  refine ⟨hunit, harguments, hstands, _, happlied, List.mem_cons_self, fun heq => ?_, fun heq => ?_⟩
  · rw [heq] at hkept
    obtain ⟨⟨-, hiff⟩, -⟩ := List.forall₂_cons.1 hkept
    exact (hiff _ hstands).1 rfl hmistaken
  · exact (hmessage concatenationMember (by decide) concatenation rfl _ hstands).1 heq hmistaken

end TypeBridge.Source
