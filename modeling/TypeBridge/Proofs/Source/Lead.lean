import TypeBridge.Proofs.Source.Ending
import TypeBridge.Proofs.Source.Structure
import Mathlib.Data.List.Chain
import Mathlib.Data.List.DropRight

/-!
# What stands before a token

Each token of a source has all pieces before it back to the token before. A comment is marked by whether, up to that
token or to the piece before the comment, there is a line feed or nothing at all. So a comment right after a directive
is never marked, since the directive has taken the line feed.

Results:
* `exists_of_ofLexemes_eq`: the pieces of a token among all pieces.
* `isLead_of_ofSource?`: what is known of the pieces before a token, and of the text up to it.
* `exists_toList_eq`: the text of a source.
-/
namespace TypeBridge.Source

/-! ## Pieces of a token -/

namespace Token

/-- The pieces before a token; `own` says whether nothing but line feeds and blanks precedes the first of them. -/
def leadOfLexemes : Bool → List Lexeme → List Trivia
  | _, [] => []
  | own, lexeme :: rest =>
    match lexeme.kind with
    | .token _ => []
    | .trivia kind =>
      trivia kind own (String.ofList lexeme.text) ::
        leadOfLexemes (kind == .blank && (own || lexeme.text.contains '\n')) rest

theorem ofLexemes_append {pieces : List Lexeme} (hpieces : ∀ piece ∈ pieces, ∃ kind, piece.kind = .trivia kind)
    {lexeme : Lexeme} {kind : Token.Kind} (hkind : lexeme.kind = .token kind) (lead : List Trivia) (own : Bool)
    (rest : List Lexeme) :
    ofLexemes lead own (pieces ++ lexeme :: rest) =
      ⟨lead.reverse ++ leadOfLexemes own pieces, kind, String.ofList lexeme.text⟩ :: ofLexemes [] false rest := by
  induction pieces generalizing lead own with
  | nil => simp [ofLexemes, hkind, leadOfLexemes]
  | cons piece pieces ih =>
    obtain ⟨⟨other, hother⟩, hpieces⟩ := List.forall_mem_cons.1 hpieces
    rw [List.cons_append, ofLexemes]
    simp only [hother, leadOfLexemes]
    rw [ih hpieces, List.reverse_cons, List.append_assoc]
    rfl

theorem ofLexemes_eq_nil {pieces : List Lexeme} (hpieces : ∀ piece ∈ pieces, ∃ kind, piece.kind = .trivia kind)
    (lead : List Trivia) (own : Bool) : ofLexemes lead own pieces = [] := by
  induction pieces generalizing lead own with
  | nil => rfl
  | cons piece pieces ih =>
    obtain ⟨⟨other, hother⟩, hpieces⟩ := List.forall_mem_cons.1 hpieces
    rw [ofLexemes]
    simp only [hother]
    exact ih hpieces _ _

/-- Lexemes have no token, or a first one. -/
theorem exists_first_token (ls : List Lexeme) :
    (∀ piece ∈ ls, ∃ kind, piece.kind = .trivia kind) ∨
      ∃ pieces lexeme kind rest, ls = pieces ++ lexeme :: rest ∧
        (∀ piece ∈ pieces, ∃ kind, piece.kind = .trivia kind) ∧ lexeme.kind = .token kind := by
  induction ls with
  | nil => exact .inl (List.forall_mem_nil _)
  | cons lexeme ls ih =>
    cases hkind : lexeme.kind with
    | token kind => exact .inr ⟨[], lexeme, kind, ls, rfl, List.forall_mem_nil _, hkind⟩
    | trivia kind =>
      rcases ih with hall | ⟨pieces, other, otherKind, rest, rfl, hpieces, hother⟩
      · exact .inl (List.forall_mem_cons.2 ⟨⟨kind, hkind⟩, hall⟩)
      · exact .inr ⟨lexeme :: pieces, other, otherKind, rest, rfl,
          List.forall_mem_cons.2 ⟨⟨kind, hkind⟩, hpieces⟩, hother⟩

/-- Where the pieces of a token are among the pieces of a source. -/
structure StandsAt (own : Bool) (before : List Token) (token : Token) (first pieces : List Lexeme) (lexeme : Lexeme) :
    Prop where
  lead : token.lead = leadOfLexemes (own && before.isEmpty) pieces
  trivia : ∀ piece ∈ pieces, ∃ kind, piece.kind = .trivia kind
  kind : lexeme.kind = .token token.kind
  text : lexeme.text = token.text.toList
  written : first.flatMap (·.text) = before.flatMap (·.written.toList)
  nil : before = [] → first = []
  last : ∀ previous, before.getLast? = some previous →
    ∃ other, first.getLast? = some other ∧ other.kind = .token previous.kind ∧ other.text = previous.text.toList

theorem text_leadOfLexemes {pieces : List Lexeme} (hpieces : ∀ piece ∈ pieces, ∃ kind, piece.kind = .trivia kind)
    (own : Bool) : (leadOfLexemes own pieces).flatMap (·.text.toList) = pieces.flatMap (·.text) := by
  induction pieces generalizing own with
  | nil => rfl
  | cons piece pieces ih =>
    obtain ⟨⟨kind, hkind⟩, hpieces⟩ := List.forall_mem_cons.1 hpieces
    rw [leadOfLexemes]
    simp only [hkind, List.flatMap_cons, ih hpieces]
    congr 1
    cases kind <;> exact String.toList_ofList

theorem toList_before (token : Token) : token.before.toList = token.lead.flatMap (·.text.toList) := by
  rw [before, String.toList_join, List.flatMap_map]

/-- Each token has its pieces among those of the source. -/
theorem exists_of_ofLexemes_eq {own : Bool} {ls : List Lexeme} {before after : List Token} {token : Token}
    (h : ofLexemes [] own ls = before ++ token :: after) :
    ∃ first pieces lexeme rest, ls = first ++ (pieces ++ lexeme :: rest) ∧
      StandsAt own before token first pieces lexeme ∧ ofLexemes [] false rest = after := by
  induction before generalizing own ls with
  | nil =>
    rcases exists_first_token ls with hall | ⟨pieces, lexeme, kind, rest, rfl, hpieces, hkind⟩
    · rw [ofLexemes_eq_nil hall] at h
      cases h
    · rw [ofLexemes_append hpieces hkind] at h
      obtain ⟨rfl, rfl⟩ := List.cons.inj h
      refine ⟨[], pieces, lexeme, rest, rfl, ⟨?_, hpieces, hkind, String.toList_ofList.symm, rfl,
        fun _ => rfl, nofun⟩, rfl⟩
      simp
  | cons other before ih =>
    rcases exists_first_token ls with hall | ⟨pieces, lexeme, kind, rest, rfl, hpieces, hkind⟩
    · rw [ofLexemes_eq_nil hall] at h
      cases h
    · rw [ofLexemes_append hpieces hkind] at h
      obtain ⟨rfl, hrest⟩ := List.cons.inj h
      obtain ⟨first, own', lexeme', rest', rfl, hstands, hafter⟩ := ih hrest
      refine ⟨pieces ++ lexeme :: first, own', lexeme', rest', by simp, ⟨?_, hstands.trivia, hstands.kind,
        hstands.text, ?_, nofun, ?_⟩, hafter⟩
      · rw [hstands.lead]
        simp
      · rw [List.flatMap_append, List.flatMap_cons, hstands.written, List.flatMap_cons, written, String.toList_append,
          toList_before, List.reverse_nil, List.nil_append, text_leadOfLexemes hpieces, String.toList_ofList,
          List.append_assoc]
      · intro previous hprevious
        cases before with
        | nil =>
          obtain rfl := Option.some.inj hprevious
          obtain rfl := hstands.nil rfl
          exact ⟨lexeme, by simp, hkind, String.toList_ofList.symm⟩
        | cons second before =>
          rw [List.getLast?_cons_cons] at hprevious
          obtain ⟨last, hlast, hrest⟩ := hstands.last previous hprevious
          exact ⟨last, by simp [List.getLast?_append, List.getLast?_cons, hlast], hrest⟩

end Token

/-! ## What is known of the pieces -/

namespace Trivia

/-- Whether, after a piece, nothing but line feeds and blanks precedes, when `own` says so of what is before it. -/
def ownAfter (own : Bool) : Trivia → Bool
  | .blank text => own || text.toList.contains '\n'
  | _ => false

/-- What it means that comments are marked by what precedes them, when `own` says what precedes the first piece. -/
def Marked : Bool → List Trivia → Prop
  | _, [] => True
  | own, piece :: rest => (∀ text mark, piece = .comment text mark → mark = own) ∧ Marked (piece.ownAfter own) rest

/-- What it means that a piece may come right before another one. -/
structure IsApart (piece other : Trivia) : Prop where
  blank : ∀ text next, piece = .blank text → other ≠ .blank next
  directive : ∀ text next, piece = .directive text → other = .blank next → '\n' ∉ next.toList

/-- What is known of the pieces before a token. -/
structure IsLead (own : Bool) (lead : List Trivia) : Prop where
  marked : Marked own lead
  apart : lead.IsChain IsApart
  directive : ∀ text, .directive text ∈ lead → text.toList.getLast? = some '\n'

end Trivia

namespace Token

theorem marked_leadOfLexemes (own : Bool) (pieces : List Lexeme) : Trivia.Marked own (leadOfLexemes own pieces) := by
  induction pieces generalizing own with
  | nil => trivial
  | cons piece pieces ih =>
    rw [leadOfLexemes]
    split
    · trivial
    · rename_i kind hkind
      cases kind with
      | blank =>
        refine ⟨nofun, ?_⟩
        have h := ih (own || piece.text.contains '\n')
        simpa [Trivia.ownAfter, trivia] using h
      | comment =>
        refine ⟨?_, ?_⟩
        · rintro text mark heq
          exact (Trivia.comment.inj heq).2.symm
        · exact ih false
      | directive => exact ⟨nofun, ih false⟩

theorem isApart_trivia {piece other : Lexeme} (h : Lexeme.IsApart piece other) {kind otherKind : Trivia.Kind}
    (hkind : piece.kind = .trivia kind) (hother : other.kind = .trivia otherKind) (own otherOwn : Bool) :
    Trivia.IsApart (trivia kind own (String.ofList piece.text))
      (trivia otherKind otherOwn (String.ofList other.text)) := by
  refine ⟨fun text next heq hnext => ?_, fun text next heq hnext => ?_⟩
  · cases kind with
    | blank =>
      cases otherKind with
      | blank => exact h.blank hkind hother
      | comment => cases hnext
      | directive => cases hnext
    | comment => cases heq
    | directive => cases heq
  · cases kind with
    | blank => cases heq
    | comment => cases heq
    | directive =>
      cases otherKind with
      | blank =>
        rw [← Trivia.blank.inj hnext, String.toList_ofList]
        exact h.directive hkind hother
      | comment => cases hnext
      | directive => cases hnext

theorem apart_leadOfLexemes (own : Bool) {pieces : List Lexeme} (h : pieces.IsChain Lexeme.IsApart) :
    (leadOfLexemes own pieces).IsChain Trivia.IsApart := by
  induction pieces generalizing own with
  | nil => exact .nil
  | cons piece pieces ih =>
    obtain ⟨hfirst, hrest⟩ := List.isChain_cons.1 h
    rw [leadOfLexemes]
    split
    · exact .nil
    · rename_i kind hkind
      refine List.isChain_cons.2 ⟨fun next hnext => ?_, ih _ hrest⟩
      cases pieces with
      | nil => cases hnext
      | cons other pieces =>
        rw [leadOfLexemes] at hnext
        split at hnext
        · cases hnext
        · rename_i otherKind hother
          obtain rfl := Option.some.inj hnext
          exact isApart_trivia (hfirst other rfl) hkind hother _ _

theorem directive_leadOfLexemes (own : Bool) {pieces : List Lexeme}
    (h : ∀ piece ∈ pieces, piece.kind = .trivia .directive → piece.text.getLast? = some '\n') {text : String}
    (hmem : .directive text ∈ leadOfLexemes own pieces) : text.toList.getLast? = some '\n' := by
  induction pieces generalizing own with
  | nil => cases hmem
  | cons piece pieces ih =>
    obtain ⟨hpiece, hpieces⟩ := List.forall_mem_cons.1 h
    rw [leadOfLexemes] at hmem
    split at hmem
    · cases hmem
    · rename_i kind hkind
      rcases List.mem_cons.1 hmem with heq | hmem
      · cases kind with
        | blank => cases heq
        | comment => cases heq
        | directive =>
          rw [Trivia.directive.inj heq, String.toList_ofList]
          exact hpiece hkind
      · exact ih _ hpieces hmem

/-! ## Tokens of a source -/

/-- What is known of a token of a source by the tokens before it: the pieces before it, and the text up to it. -/
theorem isLead_of_ofSource? {source : List Char} {before after : List Token} {token : Token}
    (h : ofSource? source = some (before ++ token :: after)) :
    Trivia.IsLead before.isEmpty token.lead ∧
      (Tree.EndsOutside before → before ≠ [] → EndsInText (before.flatMap (·.written.toList))) := by
  obtain ⟨ls, hls, htokens⟩ := Option.map_eq_some_iff.1 h
  obtain ⟨first, pieces, lexeme, rest, rfl, hstands, -⟩ := exists_of_ofLexemes_eq htokens
  refine ⟨?_, fun houtside hne => ?_⟩
  · rw [hstands.lead, Bool.true_and]
    have hchain := (List.isChain_append.1 (Lexeme.isChain_isApart hls)).2.1
    refine ⟨marked_leadOfLexemes _ _, apart_leadOfLexemes _ (List.isChain_append.1 hchain).1, ?_⟩
    refine fun text hmem => directive_leadOfLexemes _ (fun piece hpiece hkind => ?_) hmem
    obtain ⟨c, r, length, hread, htext⟩ := Lexeme.exists_piece_of_mem hls piece (by simp [hpiece])
    rw [hkind] at hread
    rw [htext]
    exact Lexeme.getLast?_directive hread
  · obtain ⟨other, hlast, hkind, htext⟩ := hstands.last _ (List.getLast?_eq_some_getLast hne)
    obtain ⟨hif, helif⟩ := houtside _ (List.getLast?_eq_some_getLast hne)
    obtain ⟨init, rfl⟩ := List.getLast?_eq_some_iff.1 hlast
    obtain ⟨c, r, length, hread, hother⟩ := Lexeme.exists_piece_of_mem hls other (by simp)
    rw [hkind] at hread
    rw [← hstands.written, List.flatMap_append, List.flatMap_singleton, hother]
    exact (Lexeme.endsInText_of_token hread hif helif).append_left _

theorem StandsAt.toList_written {own : Bool} {before : List Token} {token : Token} {first pieces : List Lexeme}
    {lexeme : Lexeme} (h : StandsAt own before token first pieces lexeme) :
    token.written.toList = pieces.flatMap (·.text) ++ lexeme.text := by
  rw [Token.written, String.toList_append, toList_before, h.lead, text_leadOfLexemes h.trivia, h.text]

/-- The text of a source is that of its tokens and of what is after the last one. -/
theorem exists_toList_eq {source : List Char} {tokens : List Token} (h : ofSource? source = some tokens) :
    ∃ rest, source = tokens.flatMap (·.written.toList) ++ rest := by
  rcases List.eq_nil_or_concat tokens with rfl | ⟨before, token, rfl⟩
  · exact ⟨source, rfl⟩
  · obtain ⟨ls, hls, htokens⟩ := Option.map_eq_some_iff.1 h
    rw [List.concat_eq_append] at htokens
    obtain ⟨first, pieces, lexeme, rest, rfl, hstands, -⟩ := exists_of_ofLexemes_eq htokens
    refine ⟨rest.flatMap (·.text), ?_⟩
    rw [← Lexeme.ofSource?_texts hls]
    simp [hstands.written, hstands.toList_written]

end Token

end TypeBridge.Source
