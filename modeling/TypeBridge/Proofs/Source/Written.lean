import TypeBridge.Proofs.Declaration.Merge
import TypeBridge.Proofs.Documentation.Lines
import TypeBridge.Proofs.Source.Reading
import TypeBridge.Source.Unit
import Mathlib.Data.List.TakeWhile

/-!
# What sources write

Of what a source can have for a name or a comment, only some texts come about: names have a letter and what may go
on a word, and comments begin as comments do.

Results:
* `Lexeme.isDirective_of_directiveAfterHash?`, `Lexeme.literal?_eq_some`, `Lexeme.piece?_eq_some`: what can be a piece.
* `Lexeme.isWordText_of_mem`, `Lexeme.isCommentText_of_mem`: words and comments among the pieces of a source.
* `isName_of_isWordOf`, `isSourceComment_of_isLeadOf`: names and comments in items.
* `isWritten_of_items?`, `isWritten_groups`: the declarations of one source and of several.
-/
namespace TypeBridge.Source

/-! ## Names -/

/-- Whether a text is a name: a character that begins words, and others that go on with them. -/
def IsName (name : String) : Prop :=
  ∃ c r, name.toList = c :: r ∧ Lexeme.isWordStart c = true ∧ ∀ d ∈ r, Lexeme.isWordPart d = true

theorem IsName.isWordPart {name : String} (h : IsName name) : ∀ c ∈ name.toList, Lexeme.isWordPart c = true := by
  obtain ⟨c, r, hname, hc, hr⟩ := h
  rw [hname, List.forall_mem_cons, Lexeme.isWordPart, hc]
  exact ⟨rfl, hr⟩

namespace Lexeme

/-- What begins a word is no blank and no mark. -/
theorem ne_of_isWordStart {c d : Char} (hc : isWordStart c = true) (hd : isWordStart d = false) : c ≠ d := by
  rintro rfl
  exact Bool.noConfusion (hc.symm.trans hd)

/-- No blank is a part of a word. -/
theorem not_isBlank_of_isWordPart {c : Char} (h : isWordPart c = true) : Text.isBlank c = false := by
  rw [isWordPart, isWordStart, Bool.or_eq_true, Bool.or_eq_true, Bool.or_eq_true] at h
  rcases h with ((h | h) | h) | h
  · exact Text.not_isBlank_of_isAlphanum (by simp [Char.isAlphanum, h])
  · obtain rfl : c = '_' := by simpa using h
    decide
  · simp only [isSpace, Bool.and_eq_true, decide_eq_true_eq, Bool.not_eq_true', Bool.or_eq_false_iff,
      Bool.and_eq_false_iff, Bool.not_eq_false'] at h
    obtain ⟨hlarge, hblank | hseparator, -⟩ := h
    · exact hblank
    · omega
  · exact Text.not_isBlank_of_isAlphanum (by simp [Char.isAlphanum, h])

/-! ## Pieces -/

/-- A piece of a source is the beginning of what is left of the source. -/
theorem exists_piece_of_mem {piece : List Char → Option (Kind × Nat)} {taken : Nat} {s : List Char}
    {ls : List Lexeme} (h : cut piece taken s = some ls) :
    ∀ lexeme ∈ ls, ∃ c r length, piece (c :: r) = some (lexeme.kind, length) ∧
      lexeme.text = c :: r.take (length - 1) := by
  fun_induction cut piece taken s generalizing ls with
  | case1 => simp_all
  | case2 c r taken ih => exact ih h
  | case3 => cases h
  | case4 c r kind length hpiece ih =>
    obtain ⟨ms, hm, rfl⟩ := Option.map_eq_some_iff.1 h
    exact List.forall_mem_cons.2 ⟨⟨c, r, length, hpiece, rfl⟩, ih hm⟩

/-- Of the characters that are counted, each one that is taken satisfies the predicate. -/
theorem all_of_mem_take {p : Char → Bool} {s : List Char} {n : Nat} (h : n ≤ countWhile p s) :
    ∀ c ∈ s.take n, p c = true := by
  intro c hc
  have hstart : s.take n <+: s.takeWhile p :=
    List.prefix_of_prefix_length_le (List.take_prefix n s) (List.takeWhile_prefix p) ((List.length_take_le n s).trans h)
  exact List.mem_takeWhile_imp (hstart.subset hc)

theorem all_of_mem_take_countWhile (p : Char → Bool) (s : List Char) :
    ∀ c ∈ s.take (countWhile p s), p c = true :=
  all_of_mem_take (Nat.le_refl _)

/-- Whether a text is a word, which may have `@` before its name. -/
def IsWordText (s : List Char) : Prop :=
  ∃ mark c r, s = mark ++ c :: r ∧ (mark = [] ∨ mark = ['@']) ∧ isWordStart c = true ∧
    ∀ d ∈ r, isWordPart d = true

theorem not_isBlank_of_isWordText {s : List Char} (h : IsWordText s) : ∀ c ∈ s, Text.isBlank c = false := by
  obtain ⟨mark, c, r, rfl, hmark, hc, hr⟩ := h
  have hparts : ∀ d ∈ c :: r, isWordPart d = true := List.forall_mem_cons.2 ⟨by rw [isWordPart, hc]; rfl, hr⟩
  rw [List.forall_mem_append]
  refine ⟨?_, fun d hd => not_isBlank_of_isWordPart (hparts d hd)⟩
  rcases hmark with rfl | rfl
  · exact List.forall_mem_nil _
  · exact List.forall_mem_singleton.2 (by decide)

/-- Whether a text is a comment: one that goes to the end of a line, or one between slashes and stars. -/
def IsCommentText (s : List Char) : Prop := (∃ r, s = '/' :: '*' :: r) ∨ ∃ r, s = '/' :: '/' :: r ∧ '\n' ∉ r

theorem isWordText_of_wordLength? {c : Char} {r : List Char} {length : Nat}
    (h : wordLength? (c :: r) = some length) : IsWordText (c :: r.take (length - 1)) := by
  unfold wordLength? at h
  split at h
  · rename_i d s heq
    obtain ⟨rfl, rfl⟩ := List.cons.inj heq
    split at h
    · rename_i hd
      obtain rfl := Option.some.inj h
      rw [show 2 + countWhile isWordPart s - 1 = countWhile isWordPart s + 1 by omega, List.take_succ_cons]
      exact ⟨['@'], d, _, rfl, .inr rfl, hd, all_of_mem_take_countWhile isWordPart s⟩
    · cases h
  · rename_i d s _ heq
    obtain ⟨rfl, rfl⟩ := List.cons.inj heq
    split at h
    · rename_i hc
      obtain rfl := Option.some.inj h
      rw [Nat.add_sub_cancel_left]
      exact ⟨[], c, _, rfl, .inl rfl, hc, all_of_mem_take_countWhile isWordPart r⟩
    · cases h
  · cases h

theorem isCommentText_of_commentLength? {c : Char} {r : List Char} {length : Nat}
    (h : commentLength? (c :: r) = some length) : IsCommentText (c :: r.take (length - 1)) := by
  unfold commentLength? at h
  split at h
  · rename_i s heq
    obtain ⟨rfl, rfl⟩ := List.cons.inj heq
    obtain rfl := Option.some.inj h
    rw [show ∀ n, 2 + n - 1 = n + 1 by omega, List.take_succ_cons]
    refine .inr ⟨_, rfl, fun hfeed => ?_⟩
    exact Bool.noConfusion (all_of_mem_take_countWhile _ s _ hfeed)
  · rename_i s heq
    obtain ⟨rfl, rfl⟩ := List.cons.inj heq
    obtain ⟨n, -, rfl⟩ := Option.map_eq_some_iff.1 h
    exact .inl ⟨s.take n, rfl⟩
  · cases h

/-- What a text can begin with after the `#` of a directive: a name behind some blanks, and a line for the directives
that take one. -/
inductive IsDirective (s : List Char) : Kind → Nat → Prop
  | elseBranch (k : Nat) : (s.drop k).takeWhile Char.isAlpha = "else".toList →
      IsDirective s (.token (.branch .elseBranch)) (k + "else".toList.length)
  | endBranch (k : Nat) : (s.drop k).takeWhile Char.isAlpha = "endif".toList →
      IsDirective s (.token (.branch .endBranch)) (k + "endif".toList.length)
  | condition {mark : BranchMark} (before count : Nat) : mark = .ifBranch ∨ mark = .elifBranch →
      lineEnd? (s.drop before) = some count → IsDirective s (.token (.branch mark)) (before + count + 1)
  | line (before count : Nat) : lineEnd? (s.drop before) = some count →
      IsDirective s (.trivia .directive) (before + count + blankLines ((s.drop before).drop count))

theorem isDirective_of_directiveAfterHash? {s : List Char} {kind : Kind} {length : Nat}
    (h : directiveAfterHash? s = some (kind, length)) : IsDirective s kind length := by
  unfold directiveAfterHash? at h
  dsimp only at h
  split at h
  · rename_i helse
    have hname := congrArg String.toList helse
    rw [String.toList_ofList] at hname
    obtain ⟨rfl, rfl⟩ := Prod.mk.inj (Option.some.inj h)
    rw [hname]
    exact .elseBranch _ hname
  · rename_i hendif
    have hname := congrArg String.toList hendif
    rw [String.toList_ofList] at hname
    obtain ⟨rfl, rfl⟩ := Prod.mk.inj (Option.some.inj h)
    rw [hname]
    exact .endBranch _ hname
  · split at h
    · cases h
    · rename_i count hcount
      split at h
      · split at h
        · cases h
        · split at h
          · obtain ⟨rfl, rfl⟩ := Prod.mk.inj (Option.some.inj h)
            exact .condition _ count (.inl rfl) hcount
          · obtain ⟨rfl, rfl⟩ := Prod.mk.inj (Option.some.inj h)
            exact .condition _ count (.inr rfl) hcount
      · split at h
        · obtain ⟨rfl, rfl⟩ := Prod.mk.inj (Option.some.inj h)
          exact .line _ count hcount
        · cases h

theorem kind_directiveAfterHash? {s : List Char} {kind : Kind} {length : Nat}
    (h : directiveAfterHash? s = some (kind, length)) :
    kind = .trivia .directive ∨ ∃ mark, kind = .token (.branch mark) := by
  cases isDirective_of_directiveAfterHash? h with
  | elseBranch => exact .inr ⟨_, rfl⟩
  | endBranch => exact .inr ⟨_, rfl⟩
  | condition => exact .inr ⟨_, rfl⟩
  | line => exact .inl rfl

/-- A character, or a string with or without the suffix that makes it one of bytes. -/
theorem literal?_eq_some {s : List Char} {kind : Kind} {length : Nat} (h : literal? s = some (kind, length)) :
    (s.head? = some '\'' ∧ kind = .token .character ∧ Literal.characterLength? s = some length) ∨
      kind = .token .string ∧ ∃ n, Literal.length? s = some n ∧
        (length = n ∨ length = n + 2 ∧ ∃ u r, s.drop n = u :: '8' :: r) := by
  unfold literal? at h
  split at h
  · rename_i hhead
    obtain ⟨n, hn, heq⟩ := Option.map_eq_some_iff.1 h
    obtain ⟨rfl, rfl⟩ := Prod.mk.inj heq
    exact .inl ⟨hhead, rfl, hn⟩
  · refine .inr ?_
    split at h
    · cases h
    · rename_i n hn
      split at h
      · rename_i u r hsuffix
        obtain ⟨rfl, rfl⟩ := Prod.mk.inj (Option.some.inj h)
        refine ⟨rfl, n, hn, ?_⟩
        split
        · exact .inr ⟨rfl, u, r, hsuffix⟩
        · exact .inl rfl
      · obtain ⟨rfl, rfl⟩ := Prod.mk.inj (Option.some.inj h)
        exact ⟨rfl, _, hn, .inl rfl⟩

theorem kind_literal? {s : List Char} {kind : Kind} {length : Nat} (h : literal? s = some (kind, length)) :
    kind = .token .character ∨ kind = .token .string := by
  rcases literal?_eq_some h with ⟨-, hkind, -⟩ | ⟨hkind, -⟩
  · exact .inl hkind
  · exact .inr hkind

/-- What a piece is, by the character that it begins with. -/
theorem piece?_eq_some {c : Char} {r : List Char} {kind : Kind} {length : Nat}
    (h : piece? (c :: r) = some (kind, length)) :
    (isSpace c = true ∧ kind = .trivia .blank ∧ length = 1 + countWhile isSpace r) ∨
      (c = '#' ∧ ∃ n, directiveAfterHash? r = some (kind, n) ∧ length = n + 1) ∨
      (kind = .trivia .comment ∧ commentLength? (c :: r) = some length) ∨
      literal? (c :: r) = some (kind, length) ∨
      (kind = .token .word ∧ wordLength? (c :: r) = some length) ∨
      (kind = .token .number ∧ numberLength? (c :: r) = some length) ∨
      (kind = .token .mark ∧ markLength? (c :: r) = some length) := by
  unfold piece? at h
  dsimp only at h
  split at h
  · rename_i hspace
    obtain ⟨rfl, rfl⟩ := Prod.mk.inj (Option.some.inj h)
    exact .inl ⟨hspace, rfl, rfl⟩
  · refine .inr ?_
    split at h
    · rename_i hhash
      obtain ⟨⟨other, n⟩, hdirective, heq⟩ := Option.map_eq_some_iff.1 h
      obtain ⟨rfl, rfl⟩ := Prod.mk.inj heq
      exact .inl ⟨eq_of_beq hhash, n, hdirective, rfl⟩
    · refine .inr ?_
      split at h
      · obtain ⟨n, hcomment, heq⟩ := Option.map_eq_some_iff.1 h
        obtain ⟨rfl, rfl⟩ := Prod.mk.inj heq
        exact .inl ⟨rfl, hcomment⟩
      · refine .inr ?_
        split at h
        · exact .inl h
        · refine .inr ?_
          split at h
          · rename_i n hword
            obtain ⟨rfl, rfl⟩ := Prod.mk.inj (Option.some.inj h)
            exact .inl ⟨rfl, hword⟩
          · refine .inr ?_
            split at h
            · rename_i n hnumber
              obtain ⟨rfl, rfl⟩ := Prod.mk.inj (Option.some.inj h)
              exact .inl ⟨rfl, hnumber⟩
            · obtain ⟨n, hmark, heq⟩ := Option.map_eq_some_iff.1 h
              obtain ⟨rfl, rfl⟩ := Prod.mk.inj heq
              exact .inr ⟨rfl, hmark⟩

/-- What the kinds of a piece say of the text that it begins: words and comments have the lengths of these. -/
theorem length_of_piece? {c : Char} {r : List Char} {kind : Kind} {length : Nat}
    (h : piece? (c :: r) = some (kind, length)) :
    (kind = .token .word → wordLength? (c :: r) = some length) ∧
      (kind = .trivia .comment → commentLength? (c :: r) = some length) := by
  rcases piece?_eq_some h with ⟨-, rfl, -⟩ | ⟨-, n, hdirective, -⟩ | ⟨rfl, hcomment⟩ | hliteral | ⟨rfl, hword⟩ |
    ⟨rfl, -⟩ | ⟨rfl, -⟩
  · exact ⟨nofun, nofun⟩
  · rcases kind_directiveAfterHash? hdirective with rfl | ⟨mark, rfl⟩
    · exact ⟨nofun, nofun⟩
    · exact ⟨nofun, nofun⟩
  · exact ⟨nofun, fun _ => hcomment⟩
  · rcases kind_literal? hliteral with rfl | rfl
    · exact ⟨nofun, nofun⟩
    · exact ⟨nofun, nofun⟩
  · exact ⟨fun _ => hword, nofun⟩
  · exact ⟨nofun, nofun⟩
  · exact ⟨nofun, nofun⟩

theorem isWordText_of_mem {source : List Char} {ls : List Lexeme} (h : ofSource? source = some ls)
    {lexeme : Lexeme} (hmem : lexeme ∈ ls) (hkind : lexeme.kind = .token .word) : IsWordText lexeme.text := by
  obtain ⟨c, r, length, hpiece, htext⟩ := exists_piece_of_mem h lexeme hmem
  rw [htext]
  exact isWordText_of_wordLength? ((length_of_piece? hpiece).1 hkind)

theorem isCommentText_of_mem {source : List Char} {ls : List Lexeme} (h : ofSource? source = some ls)
    {lexeme : Lexeme} (hmem : lexeme ∈ ls) (hkind : lexeme.kind = .trivia .comment) :
    IsCommentText lexeme.text := by
  obtain ⟨c, r, length, hpiece, htext⟩ := exists_piece_of_mem h lexeme hmem
  rw [htext]
  exact isCommentText_of_commentLength? ((length_of_piece? hpiece).2 hkind)

end Lexeme

/-! ## Tokens -/

namespace Token

/-- What is known of a token of a source. -/
structure IsWritten (token : Token) : Prop where
  word : token.kind = .word → Lexeme.IsWordText token.text.toList
  lead : ∀ text ownLine, .comment text ownLine ∈ token.lead → Lexeme.IsCommentText text.toList

theorem isWritten_ofLexemes {ls : List Lexeme}
    (hwords : ∀ lexeme ∈ ls, lexeme.kind = .token .word → Lexeme.IsWordText lexeme.text)
    (hcomments : ∀ lexeme ∈ ls, lexeme.kind = .trivia .comment → Lexeme.IsCommentText lexeme.text)
    {lead : List Trivia} {ownLine : Bool}
    (hlead : ∀ text ownLine, .comment text ownLine ∈ lead → Lexeme.IsCommentText text.toList) :
    ∀ token ∈ ofLexemes lead ownLine ls, token.IsWritten := by
  induction ls generalizing lead ownLine with
  | nil => exact List.forall_mem_nil _
  | cons lexeme rest ih =>
    obtain ⟨hword, hwords⟩ := List.forall_mem_cons.1 hwords
    obtain ⟨hcomment, hcomments⟩ := List.forall_mem_cons.1 hcomments
    unfold ofLexemes
    dsimp only
    split
    · rename_i kind hkind
      refine List.forall_mem_cons.2 ⟨⟨fun heq => ?_, fun text own hmem => ?_⟩, ?_⟩
      · rw [String.toList_ofList]
        exact hword (hkind.trans (congrArg _ heq))
      · exact hlead text own (List.mem_reverse.1 hmem)
      · exact ih hwords hcomments fun _ _ hmem => absurd hmem List.not_mem_nil
    · rename_i kind hkind
      refine ih hwords hcomments fun text own hmem => ?_
      rcases List.mem_cons.1 hmem with heq | hmem
      · cases kind with
        | blank => cases heq
        | directive => cases heq
        | comment =>
          obtain ⟨rfl, -⟩ := Trivia.comment.inj heq
          rw [String.toList_ofList]
          exact hcomment hkind
      · exact hlead text own hmem

theorem isWritten_of_mem {source : List Char} {tokens : List Token} (h : ofSource? source = some tokens) :
    ∀ token ∈ tokens, token.IsWritten := by
  obtain ⟨ls, hls, rfl⟩ := Option.map_eq_some_iff.1 h
  exact isWritten_ofLexemes (fun _ hmem => Lexeme.isWordText_of_mem hls hmem)
    (fun _ hmem => Lexeme.isCommentText_of_mem hls hmem) (fun _ _ hmem => absurd hmem List.not_mem_nil)

end Token

/-- Comments are what stands before a token, without the blanks around it. -/
theorem exists_of_mem_comments {lead : List Trivia} {comment : String} (h : comment ∈ comments lead) :
    ∃ text ownLine, .comment text ownLine ∈ lead ∧ comment = .ofList (Text.trim text.toList) := by
  obtain ⟨⟨text, ownLine⟩, hmem, rfl⟩ := List.mem_map.1 h
  -- The first comment of the run may be left out, so what is kept is in the run either way.
  generalize hrun : List.filterMap _ _ = run at hmem
  have hin : (text, ownLine) ∈ run := by
    split at hmem
    · exact List.mem_cons_of_mem _ hmem
    · exact hmem
  rw [← hrun] at hin
  obtain ⟨trivia, htrivia, heq⟩ := List.mem_filterMap.1 hin
  have hlead := List.mem_reverse.1 ((List.takeWhile_prefix _).subset (List.mem_reverse.1 htrivia))
  split at heq
  · obtain ⟨rfl, rfl⟩ := Prod.mk.inj (Option.some.inj heq)
    exact ⟨_, _, hlead, rfl⟩
  · cases heq

variable {root : List Tree}

theorem isName_of_isWordOf (htokens : ∀ token ∈ Tree.tokensAll root, token.IsWritten) {name : String}
    (h : IsWordOf root name) : IsName name := by
  obtain ⟨token, hwithin, hkind, rfl⟩ := h
  have hmem : token ∈ Tree.tokensAll root := hwithin.tokensAll_infix.subset (Tree.first_mem_tokensAll (.leaf token) [])
  have hword := (htokens token hmem).word hkind
  have hblank := Lexeme.not_isBlank_of_isWordText hword
  obtain ⟨mark, c, r, htext, hmark, hc, hr⟩ := hword
  have hat : c ≠ '@' := by rintro rfl; exact Bool.noConfusion hc
  refine ⟨c, r, ?_, hc, hr⟩
  have hwritten : Tree.textOf [.leaf token] = token.text := by
    simp [Tree.textOf, Tree.tokensAll, Tree.tokens]
  rw [nameOf, String.toList_ofList, hwritten, Text.trim_of_not_isBlank hblank, htext]
  rcases hmark with rfl | rfl
  · simp [hat]
  · simp [hat]

theorem isSourceComment_of_isLeadOf (htokens : ∀ token ∈ Tree.tokensAll root, token.IsWritten) {lead : List Trivia}
    (h : IsLeadOf root lead) : ∀ comment ∈ comments lead, Documentation.IsSourceComment comment := by
  intro comment hcomment
  obtain ⟨text, ownLine, hmem, rfl⟩ := exists_of_mem_comments hcomment
  have htext : Lexeme.IsCommentText text.toList := by
    obtain ⟨ts, hts, rfl⟩ := h
    cases ts with
    | nil => cases hmem
    | cons tree ts =>
      have htoken := hts.tokensAll_infix.subset (Tree.first_mem_tokensAll tree ts)
      exact (htokens tree.first htoken).lead text ownLine hmem
  rw [Documentation.IsSourceComment, String.toList_ofList]
  rcases htext with ⟨r, htext⟩ | ⟨r, htext, hfeed⟩
  · obtain ⟨body, hbody⟩ := Documentation.trim_openingStar r
    rw [htext, hbody]
    exact .inl ⟨body, rfl⟩
  · refine .inr fun hmem => ?_
    have hin := (Documentation.sublist_trim _).subset hmem
    rw [htext] at hin
    simp [hfeed] at hin

end TypeBridge.Source

namespace TypeBridge

/-! ## Declarations -/

/-- What is known of the name and the comments of a declaration or a member. -/
structure IsWritten (name : String) (comments : List String) : Prop where
  name : Source.IsName name
  comments : ∀ comment ∈ comments, Documentation.IsSourceComment comment

/-- What is known of a type, without those inside of it. -/
structure TypeDeclaration.IsWritten (type : TypeDeclaration) : Prop where
  head : TypeBridge.IsWritten type.name type.comments
  members : ∀ member ∈ type.members, TypeBridge.IsWritten member.name member.comments

/-- What is known of the declarations of a source. -/
structure SourceUnit.IsWritten (unit : SourceUnit) : Prop where
  enumerations : ∀ declaration ∈ unit.enumerations,
    TypeBridge.IsWritten declaration.name declaration.comments
  types : ∀ placed ∈ TypeDeclaration.placedAll [] unit.types, placed.type.IsWritten

theorem SourceUnit.IsWritten.append {first second : SourceUnit} (hfirst : first.IsWritten)
    (hsecond : second.IsWritten) : (Source.append first second).IsWritten := by
  refine ⟨List.forall_mem_append.2 ⟨hfirst.enumerations, hsecond.enumerations⟩, ?_⟩
  rw [Source.append, TypeDeclaration.placedAll_append]
  exact List.forall_mem_append.2 ⟨hfirst.types, hsecond.types⟩

namespace Source

variable {root : List Tree}

theorem typesOfAll_eq_flatMap (namespaceName : String) (items : List Item) :
    typesOfAll namespaceName items = items.flatMap (typesOf namespaceName) := by
  induction items with
  | nil => rfl
  | cons item items ih => rw [typesOfAll, ih, List.flatMap_cons]

theorem enumerationsOfAll_eq_flatMap (namespaceName : String) (items : List Item) :
    enumerationsOfAll namespaceName items = items.flatMap (enumerationsOf namespaceName) := by
  induction items with
  | nil => rfl
  | cons item items ih => rw [enumerationsOfAll, ih, List.flatMap_cons]

theorem isWritten_of_tokens (htokens : ∀ token ∈ Tree.tokensAll root, token.IsWritten) {name : String}
    {lead : List Trivia} (hname : IsWordOf root name) (hlead : IsLeadOf root lead) :
    TypeBridge.IsWritten name (comments lead) :=
  ⟨isName_of_isWordOf htokens hname, isSourceComment_of_isLeadOf htokens hlead⟩

theorem isWritten_members (htokens : ∀ token ∈ Tree.tokensAll root, token.IsWritten) {header : TypeHeader}
    {items : List Item} (hparameters : ∀ parameter ∈ header.parameters, parameter.IsMadeOf root)
    (hitems : ∀ item ∈ items, item.IsMadeOf root) :
    ∀ member ∈ header.parameters.map Parameter.member ++ items.filterMap (Item.member? header.kind),
      TypeBridge.IsWritten member.name member.comments := by
  rw [List.forall_mem_append, List.forall_mem_map]
  refine ⟨fun parameter hmem => ?_, fun member hmem => ?_⟩
  · exact ⟨isName_of_isWordOf htokens (hparameters parameter hmem).name, List.forall_mem_nil _⟩
  · obtain ⟨item, hitem, hmember⟩ := List.mem_filterMap.1 hmem
    cases hitems item hitem with
    | property hname hlead =>
      rw [Item.member?] at hmember
      split at hmember
      · obtain rfl := Option.some.inj hmember
        exact isWritten_of_tokens htokens hname hlead
      · cases hmember
    | namespaceBlock | namespaceLine | type | enumeration | other => cases hmember

/-- What is so of the type that an item stands for, and of those of the items in it, is so of all types of the item. -/
theorem forall_placedAll_type {p : PlacedType → Prop} {space : String} {owners : List String} {header : TypeHeader}
    {items : List Item} (hself : ∀ type, typesOf space (.type header items) = [type] → p ⟨owners, type⟩)
    (hinner : ∀ item ∈ items,
      ∀ placed ∈ TypeDeclaration.placedAll (header.name :: owners) (typesOf space item), p placed) :
    ∀ placed ∈ TypeDeclaration.placedAll owners (typesOf space (.type header items)), p placed := by
  rw [typesOf, TypeDeclaration.placedAll, TypeDeclaration.placedAll, List.append_nil, TypeDeclaration.placed_eq,
    List.forall_mem_cons]
  refine ⟨hself _ (typesOf.eq_def _ _), ?_⟩
  rw [typesOfAll_eq_flatMap, TypeDeclaration.placedAll_eq_flatMap, List.flatMap_assoc]
  intro placed hplaced
  obtain ⟨item, hitem, hplaced⟩ := List.mem_flatMap.1 hplaced
  rw [← TypeDeclaration.placedAll_eq_flatMap] at hplaced
  exact hinner item hitem placed hplaced

/-- A type among those of an item is read from the item, or from one inside of it. -/
theorem exists_of_mem_typesOf {item : Item} (h : item.IsMadeOf root) (namespaceName : String) (owners : List String) :
    ∀ placed ∈ TypeDeclaration.placedAll owners (typesOf namespaceName item),
      ∃ header items, Item.IsMadeOf root (.type header items) ∧
        typesOf namespaceName (.type header items) = [placed.type] := by
  induction h generalizing owners with
  | @type header items hname hlead hparameters hitems ih =>
    refine forall_placedAll_type (fun type htype => ?_) fun item hitem => ih item hitem _
    exact ⟨header, items, .type hname hlead hparameters hitems, htype⟩
  | namespaceBlock | namespaceLine | enumeration | property | other => exact List.forall_mem_nil _

theorem isWritten_typesOf (htokens : ∀ token ∈ Tree.tokensAll root, token.IsWritten) {item : Item}
    (h : item.IsMadeOf root) (namespaceName : String) (owners : List String) :
    ∀ placed ∈ TypeDeclaration.placedAll owners (typesOf namespaceName item), placed.type.IsWritten := by
  intro placed hplaced
  obtain ⟨header, items, hmade, htype⟩ := exists_of_mem_typesOf h namespaceName owners placed hplaced
  rw [typesOf] at htype
  rw [← (List.cons.inj htype).1]
  cases hmade with
  | type hname hlead hparameters hitems =>
    exact ⟨isWritten_of_tokens htokens hname hlead, isWritten_members htokens hparameters hitems⟩

theorem isWritten_enumerationsOf (htokens : ∀ token ∈ Tree.tokensAll root, token.IsWritten) {item : Item}
    (h : item.IsMadeOf root) (namespaceName : String) :
    ∀ declaration ∈ enumerationsOf namespaceName item,
      TypeBridge.IsWritten declaration.name declaration.comments := by
  induction h with
  | enumeration hname hlead =>
    rw [enumerationsOf, List.forall_mem_singleton]
    exact isWritten_of_tokens htokens hname hlead
  | type _ _ _ _ ih =>
    rw [enumerationsOf, enumerationsOfAll_eq_flatMap]
    intro declaration hdeclaration
    obtain ⟨item, hitem, hdeclaration⟩ := List.mem_flatMap.1 hdeclaration
    exact ih item hitem declaration hdeclaration
  | namespaceBlock | namespaceLine | property | other => exact List.forall_mem_nil _

/-- What is kept when the declarations of a source are put before those of another one holds of the declarations of
some items when it holds of those of each of them. -/
theorem unitOfAll_of {motive : SourceUnit → Prop} (hnil : motive {})
    (happend : ∀ first second, motive first → motive second → motive (Source.append first second)) {usual : String}
    {items : List Item} (h : ∀ item ∈ items, ∀ outer current, motive (unitOf usual outer current item))
    (outer current : Option String) : motive (unitOfAll usual outer current items) := by
  induction items generalizing current with
  | nil => exact hnil
  | cons item items ih =>
    obtain ⟨hitem, hitems⟩ := List.forall_mem_cons.1 h
    rw [unitOfAll.eq_def]
    split
    · rename_i heq
      cases heq
    · rename_i heq
      obtain ⟨-, rfl⟩ := List.cons.inj heq
      exact ih hitems _
    · rename_i heq
      obtain ⟨rfl, rfl⟩ := List.cons.inj heq
      exact happend _ _ (hitem outer current) (ih hitems current)

/-- The same of one item, when all items inside of an item are as it is and it holds of what such items declare that
are no namespaces. -/
theorem unitOf_of_inner {motive : SourceUnit → Prop} {p : Item → Prop} (hnil : motive {})
    (happend : ∀ first second, motive first → motive second → motive (Source.append first second))
    (hinner : ∀ item, p item → ∀ inner ∈ item.inner, p inner)
    (h : ∀ space item, p item → motive ⟨typesOf space item, enumerationsOf space item⟩) (usual : String) (item : Item)
    (hitem : p item) (outer current : Option String) : motive (unitOf usual outer current item) := by
  induction item using Item.induction generalizing outer current with
  | step item ih =>
    cases item with
    | namespaceBlock name items =>
      exact unitOfAll_of hnil happend (fun inner hmem => ih inner hmem (hinner _ hitem inner hmem)) _ _
    | namespaceLine | type | enumeration | property | other => exact h _ _ hitem

theorem unitOf_of {motive : SourceUnit → Prop} (hnil : motive {})
    (happend : ∀ first second, motive first → motive second → motive (Source.append first second))
    (h : ∀ space item, motive ⟨typesOf space item, enumerationsOf space item⟩) (usual : String) (item : Item)
    (outer current : Option String) : motive (unitOf usual outer current item) :=
  unitOf_of_inner hnil happend (fun _ _ _ _ => True.intro) (fun space item _ => h space item) usual item True.intro
    outer current

theorem Item.IsMadeOf.inner {item : Item} (h : item.IsMadeOf root) : ∀ inner ∈ item.inner, inner.IsMadeOf root := by
  cases h with
  | namespaceBlock _ hitems => exact hitems
  | type _ _ _ hitems => exact hitems
  | namespaceLine | enumeration | property | other => exact List.forall_mem_nil _

theorem unitOfAll_of_isMadeOf {motive : SourceUnit → Prop} (hnil : motive {})
    (happend : ∀ first second, motive first → motive second → motive (Source.append first second))
    (h : ∀ space item, item.IsMadeOf root → motive ⟨typesOf space item, enumerationsOf space item⟩) (usual : String)
    {items : List Item} (hitems : ∀ item ∈ items, item.IsMadeOf root) (outer current : Option String) :
    motive (unitOfAll usual outer current items) :=
  unitOfAll_of hnil happend
    (fun item hitem => unitOf_of_inner hnil happend (fun _ => Item.IsMadeOf.inner) h usual item (hitems item hitem))
    outer current

theorem isWritten_declarations (htokens : ∀ token ∈ Tree.tokensAll root, token.IsWritten) {item : Item}
    (h : item.IsMadeOf root) (namespaceName : String) :
    SourceUnit.IsWritten ⟨typesOf namespaceName item, enumerationsOf namespaceName item⟩ :=
  ⟨isWritten_enumerationsOf htokens h namespaceName, isWritten_typesOf htokens h namespaceName []⟩

/-- The declarations of a source have names and comments as sources write them. -/
theorem isWritten_of_items? {source : List Char} {items : List Item} (h : items? source = some items)
    (usual : String) (outer current : Option String) : (unitOfAll usual outer current items).IsWritten := by
  obtain ⟨root, hroot, hmade⟩ := isMadeOf_items? h
  obtain ⟨tokens, htokens, htrees⟩ := Option.bind_eq_some_iff.1 hroot
  have hwritten : ∀ token ∈ Tree.tokensAll root, token.IsWritten := by
    rw [Tree.tokensAll_ofTokens? htrees]
    exact Token.isWritten_of_mem htokens
  exact unitOfAll_of_isMadeOf ⟨List.forall_mem_nil _, List.forall_mem_nil _⟩ (fun _ _ => SourceUnit.IsWritten.append)
    (fun space _ hitem => isWritten_declarations hwritten hitem space) usual hmade outer current

theorem isWritten_unit? {options : Options} {source : String} {unit : SourceUnit}
    (h : unit? options source = some unit) : unit.IsWritten := by
  obtain ⟨items, hitems, rfl⟩ := Option.map_eq_some_iff.1 h
  exact isWritten_of_items? hitems _ none none

theorem isWritten_units {options : Options} {units : List SourceUnit}
    (h : ∀ unit ∈ units, ∃ source, unit? options source = some unit) : ∀ unit ∈ units, unit.IsWritten := by
  intro unit hunit
  obtain ⟨source, hsource⟩ := h unit hunit
  exact isWritten_unit? hsource

end Source

/-- What is known of the declarations of a namespace. -/
structure NamespaceGroup.IsWritten (group : NamespaceGroup) : Prop where
  enumerations : ∀ declaration ∈ group.enumerations,
    TypeBridge.IsWritten declaration.name declaration.comments
  types : ∀ placed ∈ TypeDeclaration.placedAll [] group.types, placed.type.IsWritten

/-- Merging sources makes no names and no comments. -/
theorem isWritten_groups {units : List SourceUnit} (h : ∀ unit ∈ units, unit.IsWritten) :
    ∀ group ∈ (DeclarationSet.ofUnits units).groups, group.IsWritten := by
  intro group hgroup
  refine ⟨fun declaration hmem => ?_, fun placed hmem => ?_⟩
  · obtain ⟨unit, hunit, hin⟩ := List.mem_flatMap.1
      ((DeclarationSet.perm_enumerations_groups units).subset (List.mem_flatMap.2 ⟨group, hgroup, hmem⟩))
    exact (h unit hunit).enumerations declaration hin
  · obtain ⟨unit, hunit, hin⟩ := List.mem_flatMap.1
      ((DeclarationSet.perm_placed_groups units).subset (List.mem_flatMap.2 ⟨group, hgroup, hmem⟩))
    exact (h unit hunit).types placed hin

end TypeBridge
