import TypeBridge.Proofs.TypeExpr.Grammar

/-!
# The trees of type expressions

Which trees a text can denote. Their names consist of identifiers, every generic type has arguments,
every array has a rank, and a tuple is not a type in parentheses.

Results:
* `beginsToken_of_tokenAt?`: the tokens at the beginning of a text.
* `isIdentifier_of_mem_tokens`: the names among the tokens of a text are identifiers.
* `parse_of_isIdentifier`: an identifier denotes a name without a qualifier.
* `wellFormed_of_parse`: what a text denotes is well formed.
-/
namespace TypeBridge

/-- An ASCII identifier. -/
def IsIdentifier (text : String) : Prop :=
  ∃ c r, text.toList = c :: r ∧ TypeExpr.isNameStart c = true ∧ ∀ d ∈ r, TypeExpr.isNameChar d = true

namespace IsIdentifier

variable {text : String} (h : IsIdentifier text)
include h

theorem isNameChar_of_mem {c : Char} (hc : c ∈ text.toList) : TypeExpr.isNameChar c = true := by
  obtain ⟨d, r, htext, hd, hr⟩ := h
  rw [htext, List.mem_cons] at hc
  rcases hc with rfl | hc
  · exact TypeExpr.isNameChar_of_isNameStart hd
  · exact hr c hc

theorem dot_not_mem : '.' ∉ text.toList := fun hdot => absurd (h.isNameChar_of_mem hdot) (by decide)

theorem ne_empty : text ≠ "" := by
  rintro rfl
  obtain ⟨c, r, htext, -⟩ := h
  cases htext

end IsIdentifier

/-- A name whose parts are identifiers. -/
def TypeName.WellFormed (name : TypeName) : Prop := ∀ text ∈ name.segments, IsIdentifier text

namespace TypeName.WellFormed

variable {name : TypeName} (h : name.WellFormed)
include h

theorem simple : IsIdentifier name.simple := h _ (List.mem_append_right _ (List.mem_singleton_self _))

theorem of_mem_qualifier {part : String} (hpart : part ∈ name.qualifier) : IsIdentifier part :=
  h _ (List.mem_append_left _ hpart)

end TypeName.WellFormed

namespace TypeExpr

/-- Trees that have a spelling. -/
inductive WellFormed : TypeExpr → Prop
  | named {name : TypeName} : name.WellFormed → WellFormed (.named name)
  | generic {name : TypeName} {arguments : List TypeExpr} :
    name.WellFormed → arguments ≠ [] → (∀ type ∈ arguments, WellFormed type) →
    WellFormed (.generic name arguments)
  | array {element : TypeExpr} {rank : Nat} :
    WellFormed element → 1 ≤ rank → WellFormed (.array element rank)
  | nullable {inner : TypeExpr} : WellFormed inner → WellFormed (.nullable inner)
  | tuple {elements : List (Option String × TypeExpr)} :
    elements ≠ [] → (∀ type, elements ≠ [(none, type)]) →
    (∀ element ∈ elements, WellFormed element.2) →
    (∀ element ∈ elements, ∀ label ∈ element.1, IsIdentifier label) → WellFormed (.tuple elements)

/-! ## The token at the beginning of a text -/

theorem tokenAt?_of_isNameStart {c : Char} (hc : isNameStart c = true) (s : List Char) :
    tokenAt? (c :: s) =
      some (.name (.ofList (c :: s.takeWhile isNameChar)), (s.takeWhile isNameChar).length) := by
  unfold tokenAt?
  split
  · rename_i heq
    cases heq
    cases hc
  · rename_i heq
    cases heq
    cases hc
  · rename_i heq
    cases heq
    rw [if_pos hc]
  · rename_i heq
    cases heq

theorem text_of_mark? {c : Char} {t : Token} (h : mark? c = some t) :
    (∀ text, t ≠ .name text) ∧ t.text.toList = [c] := by
  unfold mark? at h
  split at h <;> cases h <;> exact ⟨by simp, rfl⟩

/-- The tokens that a text can begin with, and how many characters after the first belong to them. -/
inductive BeginsToken : List Char → Token → Nat → Prop
  | verbatim {c : Char} (r : List Char) : isNameStart c = true →
    BeginsToken ('@' :: c :: r) (.name (.ofList (c :: r.takeWhile isNameChar))) ((r.takeWhile isNameChar).length + 1)
  | colons (r : List Char) : BeginsToken (':' :: ':' :: r) .alias 1
  | name {c : Char} (r : List Char) : isNameStart c = true →
    BeginsToken (c :: r) (.name (.ofList (c :: r.takeWhile isNameChar))) (r.takeWhile isNameChar).length
  | mark {c : Char} {t : Token} (r : List Char) : mark? c = some t → BeginsToken (c :: r) t 0

theorem beginsToken_of_tokenAt? {s : List Char} {t : Token} {taken : Nat} (h : tokenAt? s = some (t, taken)) :
    BeginsToken s t taken := by
  unfold tokenAt? at h
  split at h
  · split at h
    · rename_i c r hc
      cases h
      exact .verbatim r hc
    · cases h
  · cases h
    exact .colons _
  · split at h
    · rename_i c r _ _ hc
      cases h
      exact .name r hc
    · obtain ⟨mark, hmark, heq⟩ := Option.map_eq_some_iff.1 h
      cases heq
      exact .mark _ hmark
  · cases h

/-! ## Identifiers among the tokens -/

theorem isIdentifier_of_tokenAt? {s : List Char} {text : String} {n : Nat}
    (h : tokenAt? s = some (.name text, n)) : IsIdentifier text := by
  cases beginsToken_of_tokenAt? h with
  | verbatim r hc => exact ⟨_, _, String.toList_ofList, hc, List.all_eq_true.1 List.all_takeWhile⟩
  | name r hc => exact ⟨_, _, String.toList_ofList, hc, List.all_eq_true.1 List.all_takeWhile⟩
  | mark r hmark => exact absurd rfl ((text_of_mark? hmark).1 text)

theorem isIdentifier_of_mem_scan {taken offset : Nat} {s : List Char} {ts : List Token} {text : String}
    (h : scan taken offset s = .ok ts) (hmem : .name text ∈ ts) : IsIdentifier text := by
  fun_induction scan taken offset s generalizing ts with
  | case1 => cases h; simp at hmem
  | case2 _ _ _ _ ih => exact ih h hmem
  | case3 _ _ _ _ ih => exact ih h hmem
  | case4 => cases h
  | case5 => cases h
  | case6 offset c r _ token taken htoken ts' hr ih =>
    cases h
    rcases List.mem_cons.1 hmem with rfl | hmem
    · exact isIdentifier_of_tokenAt? htoken
    · exact ih hr hmem

theorem isIdentifier_of_mem_tokens {source text : String} {ts : List Token}
    (h : tokens source = .ok ts) (hmem : .name text ∈ ts) : IsIdentifier text :=
  isIdentifier_of_mem_scan h hmem

theorem tokens_of_isIdentifier {text : String} (h : IsIdentifier text) : tokens text = .ok [.name text] := by
  obtain ⟨c, r, htext, hc, hr⟩ := h
  have hblank : Text.isBlank c = false := not_isBlank_of_isNameChar (isNameChar_of_isNameStart hc)
  have hmore : r.takeWhile isNameChar = r := by
    have := @List.takeWhile_append_of_pos _ isNameChar r [] hr
    simpa using this
  have htoken : tokenAt? (c :: r) = some (.name text, r.length) := by
    rw [tokenAt?_of_isNameStart hc, hmore, ← htext, String.ofList_toList]
  rw [tokens, htext, scan, if_neg (by simp [hblank]), htoken]
  simp only
  rw [scan_eq_drop, List.drop_length, scan]

theorem parse_of_isIdentifier {text : String} (h : IsIdentifier text) :
    parse text = .ok (.named ⟨[], text⟩) := by
  refine parse_eq_ok.2 ⟨_, tokens_of_isIdentifier h, ?_⟩
  exact .type (.named (.plain text [])) .noSuffix

/-! ## Trees of derivations -/

/-- What is known of a part of the grammar whose names are identifiers. -/
def Phrase.WellFormed : Phrase → Prop
  | .type t => t.WellFormed
  | .suffixes base t => base.WellFormed → t.WellFormed
  | .primary t => t.WellFormed
  | .element e => e.2.WellFormed ∧ ∀ label ∈ e.1, IsIdentifier label
  | .elements es => es ≠ [] ∧ ∀ element ∈ es,
    element.2.WellFormed ∧ ∀ label ∈ element.1, IsIdentifier label
  | .types ts => ts ≠ [] ∧ ∀ t ∈ ts, t.WellFormed

theorem mem_dotted {segments : List String} {text : String} (h : text ∈ segments) :
    .name text ∈ dotted segments := by
  simp [dotted, h]

theorem IsName.wellFormed {name : TypeName} {a : List Token} (h : IsName name a)
    (hids : ∀ text, .name text ∈ a → IsIdentifier text) : name.WellFormed := by
  intro text hmem
  cases h with
  | plain first segments =>
    rw [TypeName.segments_ofSegments, List.mem_cons] at hmem
    rcases hmem with rfl | hmem
    · exact hids _ (by simp)
    · exact hids _ (List.mem_cons_of_mem _ (mem_dotted hmem))
  | global first segments =>
    rw [TypeName.segments_ofSegments, List.mem_cons] at hmem
    rcases hmem with rfl | hmem
    · exact hids _ (by simp)
    · exact hids _ (by simp [mem_dotted hmem])

theorem wellFormed_of_derives {phrase : Phrase} {a : List Token} (h : Derives phrase a)
    (hids : ∀ text, .name text ∈ a → IsIdentifier text) : phrase.WellFormed := by
  induction h with
  | type _ _ ihbase ihsuffixes =>
    exact ihsuffixes (fun text hmem => hids text (List.mem_append_right _ hmem))
      (ihbase fun text hmem => hids text (List.mem_append_left _ hmem))
  | noSuffix => exact id
  | question _ ih =>
    exact fun hbase => ih (fun text hmem => hids text (List.mem_cons_of_mem _ hmem)) (.nullable hbase)
  | brackets commas _ ih =>
    exact fun hbase => ih (fun text hmem => hids text (by simp [hmem])) (.array hbase (by omega))
  | parentheses _ ih => exact ih fun text hmem => hids text (by simp [hmem])
  | tuple _ hne ih =>
    obtain ⟨hne', hall⟩ := ih fun text hmem => hids text (by simp [hmem])
    exact .tuple hne' hne (fun element hmem => (hall element hmem).1) fun element hmem => (hall element hmem).2
  | named hname => exact .named (hname.wellFormed hids)
  | generic hname _ ih =>
    obtain ⟨hne, hall⟩ := ih fun text hmem => hids text (by simp [hmem])
    exact .generic (hname.wellFormed fun text hmem => hids text (by simp [hmem])) hne hall
  | unlabelled _ ih => exact ⟨ih hids, by simp⟩
  | labelled label _ ih =>
    refine ⟨ih fun text hmem => hids text (by simp [hmem]), fun label' hlabel => ?_⟩
    cases hlabel
    exact hids label (by simp)
  | lastElement _ ih => exact ⟨by simp, List.forall_mem_singleton.2 (ih hids)⟩
  | moreElements _ _ ih ihs =>
    refine ⟨by simp, fun element hmem => ?_⟩
    rcases List.mem_cons.1 hmem with rfl | hmem
    · exact ih fun text hmem => hids text (by simp [hmem])
    · exact (ihs fun text hmem => hids text (by simp [hmem])).2 element hmem
  | lastType _ ih => exact ⟨by simp, List.forall_mem_singleton.2 (ih hids)⟩
  | moreTypes _ _ ih ihs =>
    refine ⟨by simp, fun type hmem => ?_⟩
    rcases List.mem_cons.1 hmem with rfl | hmem
    · exact ih fun text hmem => hids text (by simp [hmem])
    · exact (ihs fun text hmem => hids text (by simp [hmem])).2 type hmem

/-- What a text denotes is well formed. -/
theorem wellFormed_of_parse {source : String} {type : TypeExpr} (h : parse source = .ok type) :
    type.WellFormed := by
  obtain ⟨ts, hts, hd⟩ := parse_eq_ok.1 h
  exact wellFormed_of_derives hd fun text hmem => isIdentifier_of_mem_tokens hts hmem

end TypeExpr

end TypeBridge
