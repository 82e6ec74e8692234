import TypeBridge.Proofs.TypeExpr.Descent
import TypeBridge.Proofs.TypeExpr.ReaderPlaces
import TypeBridge.Proofs.TypeExpr.Writing
import Mathlib.Data.List.Basic

/-!
# The earliest faults

A fault is reported at the first token with which the tokens of a text stop being the beginning of any type expression:
what stands before it can be completed to one, and what stands up to it cannot.

Results:
* `isViable_iff`: tokens that can be completed are those that lead somewhere.
* `fault_earliest`: where the fault of a text is found, and how it is reported.
-/
namespace TypeBridge.TypeExpr

/-! ## Viable tokens -/

/-- What it means that tokens are those of a text that denotes a type expression. -/
def IsAccepted (ts : List Token) : Prop := ∃ text type, tokens text = .ok ts ∧ parse text = .ok type

/-- What it means that tokens are the first ones of a text that denotes a type expression. -/
def IsViable (ts : List Token) : Prop := ∃ more, IsAccepted (ts ++ more)

theorem isAccepted_iff {ts : List Token} :
    IsAccepted ts ↔ (∀ text, .name text ∈ ts → IsIdentifier text) ∧ ∃ type, ofTokens ts = .ok type := by
  constructor
  · rintro ⟨text, type, htokens, hparse⟩
    obtain ⟨ts', htokens', hderives⟩ := parse_eq_ok.1 hparse
    cases htokens.symm.trans htokens'
    exact ⟨fun _ hmem => isIdentifier_of_mem_tokens htokens hmem, type, ofTokens_eq_ok_iff.2 hderives⟩
  · rintro ⟨hids, type, htype⟩
    have htokens : tokens (.ofList (write ts)) = .ok ts := by
      rw [tokens_eq_ok_iff, String.toList_ofList]
      exact writes_write hids
    exact ⟨_, type, htokens, parse_of_tokens htokens htype⟩

theorem name_not_mem_closings (around : List Enclosure) (text : String) : .name text ∉ Place.closings around := by
  rw [Place.closings, List.mem_map]
  rintro ⟨bracket, -, heq⟩
  cases bracket <;> cases heq

theorem isIdentifier_of_mem_finish {place : Place} {text : String} (h : .name text ∈ place.finish) :
    IsIdentifier text := by
  have hnot (around : List Enclosure) := name_not_mem_closings around text
  have htext : text = "T" := by
    cases place with
    | type around | part around => simpa [Place.finish, hnot] using h
    | _ => simp [Place.finish, hnot] at h
  exact ⟨'T', [], by rw [htext]; rfl, rfl, by nofun⟩

/-- Tokens that can be completed are those that lead somewhere. -/
theorem isViable_iff {ts : List Token} :
    IsViable ts ↔
      (∀ text, .name text ∈ ts → IsIdentifier text) ∧ ∃ place, (Place.type []).run ts = some place := by
  constructor
  · rintro ⟨more, h⟩
    obtain ⟨hids, htype⟩ := isAccepted_iff.1 h
    obtain ⟨last, hrun, -⟩ := ofTokens_isOk_iff.1 htype
    rw [Place.run_append] at hrun
    obtain ⟨place, hplace, -⟩ := Option.bind_eq_some_iff.1 hrun
    exact ⟨fun text hmem => hids text (List.mem_append_left more hmem), place, hplace⟩
  · rintro ⟨hids, place, hplace⟩
    obtain ⟨last, hrun, hends⟩ := place.run_finish
    refine ⟨place.finish, isAccepted_iff.2 ⟨fun text hmem => ?_, ofTokens_isOk_iff.2 ⟨last, ?_, hends⟩⟩⟩
    · exact (List.mem_append.1 hmem).elim (hids text) isIdentifier_of_mem_finish
    · rw [Place.run_append, hplace]
      exact hrun

theorem not_isViable_concat {a : List Token} {t : Token} {place : Place} (hrun : (Place.type []).run a = some place)
    (hstep : place.step t = none) : ¬ IsViable (a ++ [t]) := by
  rw [isViable_iff, Place.run_append, hrun]
  rintro ⟨-, next, hnext⟩
  rw [Option.bind_some, Place.run, hstep] at hnext
  cases hnext

/-! ## Messages -/

/-- What a message says before the token that was found. -/
def Expected.complaint : Expected → String
  | .type => "expected a type but found "
  | .name => "expected an identifier but found "
  | .token t => "expected " ++ Text.quoted t.text ++ " but found "
  | .nothing => "unexpected token "

theorem Fault.message_eq (fault : Fault) : fault.message = fault.expected.complaint ++ fault.found := by
  obtain ⟨expected, rest⟩ := fault
  cases expected <;> rfl

theorem message_grammar (text : String) (fault : Fault) :
    message text (.grammar fault) =
      fault.expected.complaint ++ fault.found ++ " in type expression " ++ Text.quoted text := by
  rw [← fault.message_eq]
  rfl

/-- No complaint sounds as if a token had been taken where none is left. -/
theorem not_exhausted_prefix (expected : Expected) (s : String) :
    ¬ Stop.exhausted.message.toList <+: (expected.complaint ++ s).toList := by
  rintro ⟨rest, hrest⟩
  have hfirst : some 'u' = (expected.complaint ++ s).toList.head? := congrArg List.head? hrest
  have htwelfth : some 'e' = (expected.complaint ++ s).toList[11]? := congrArg (·[11]?) hrest
  rw [String.toList_append] at hfirst htwelfth
  cases expected with
  | nothing => exact absurd htwelfth (by decide : some 'e' ≠ some 't')
  | type => exact absurd hfirst (by decide : some 'u' ≠ some 'e')
  | name => exact absurd hfirst (by decide : some 'u' ≠ some 'e')
  | token t =>
    rw [Expected.complaint, String.toList_append, String.toList_append] at hfirst
    exact absurd hfirst (by decide : some 'u' ≠ some 'e')

/-! ## Where faults are found -/

theorem exists_ofTokens_of_parse {text : String} {ts : List Token} {cause : Cause} (htokens : tokens text = .ok ts)
    (hne : ts ≠ []) (h : parse text = .error cause) : ∃ fault, ofTokens ts = .error fault ∧ cause = .grammar fault := by
  unfold parse at h
  split at h
  · rename_i heq
    cases htokens.symm.trans heq
  · rename_i heq
    cases htokens.symm.trans heq
    exact absurd rfl hne
  · rename_i ts' _ heq
    cases htokens.symm.trans heq
    split at h
    · rename_i fault hfault
      cases h
      exact ⟨fault, hfault, rfl⟩
    · cases h

/-- A fault is found at the first token with which the tokens of a text stop being the first ones of any type
expression, or where the text ends before its tokens have become one. The message shows what was found there. -/
theorem fault_earliest {text : String} {ts : List Token} {cause : Cause} (htokens : tokens text = .ok ts)
    (hne : ts ≠ []) (h : parse text = .error cause) :
    ∃ (fault : Fault) (k : Nat), cause = .grammar fault ∧ k ≤ ts.length ∧ fault.rest = ts.drop k ∧
      IsViable (ts.take k) ∧
      (∀ hk : k < ts.length, ¬ IsViable (ts.take (k + 1)) ∧
        message text cause =
          fault.expected.complaint ++ Text.quoted ts[k].text ++ " in type expression " ++ Text.quoted text) ∧
      (k = ts.length →
        message text cause = fault.expected.complaint ++ "None" ++ " in type expression " ++ Text.quoted text) ∧
      descend ts = .error (.fault fault) ∧ ¬ Stop.exhausted.message.toList <+: (message text cause).toList := by
  obtain ⟨fault, hfault, rfl⟩ := exists_ofTokens_of_parse htokens hne h
  obtain ⟨a, place, hts, hrun, hstuck⟩ := reaches_of_ofTokens_eq_error hfault
  have hids (text : String) (hmem : .name text ∈ a) : IsIdentifier text :=
    isIdentifier_of_mem_tokens htokens (hts ▸ List.mem_append_left _ hmem)
  refine ⟨fault, a.length, rfl, ?_, ?_, ?_, fun hk => ?_, fun hk => ?_, ?_, ?_⟩
  · rw [hts, List.length_append]
    exact Nat.le_add_right _ _
  · rw [hts, List.drop_left]
  · rw [hts, List.take_left]
    exact isViable_iff.2 ⟨hids, place, hrun⟩
  · obtain ⟨expected, _ | ⟨t, rest⟩⟩ := fault
    · rw [hts, List.append_nil] at hk
      exact absurd hk (Nat.lt_irrefl _)
    · subst hts
      rw [List.take_length_add_append, List.getElem_append_right (Nat.le_refl _), message_grammar]
      simp only [Nat.sub_self]
      exact ⟨not_isViable_concat hrun hstuck, rfl⟩
  · have hrest : fault.rest = [] := by
      rw [hts, List.length_append] at hk
      exact List.eq_nil_of_length_eq_zero (Nat.left_eq_add.1 hk)
    rw [message_grammar, Fault.found, hrest]
  · rw [descend_eq, hfault]
    rfl
  · rw [message_grammar, String.append_assoc, String.append_assoc]
    exact not_exhausted_prefix fault.expected _

/-- The arguments of a type are closed with a bracket that was not opened for them. -/
theorem fault_earliest_wrong_bracket :
    let ts : List Token := [.openParen, .name "int", .name "a", .comma, .name "List", .less, .closeParen]
    let cause : Cause := .grammar ⟨.type, [.closeParen]⟩
    parse "(int a, List<)" = .error cause ∧ IsViable (ts.take 6) ∧ ¬ IsViable ts ∧
      message "(int a, List<)" cause = "expected a type but found ')' in type expression '(int a, List<)'" := by
  intro ts cause
  have htokens : tokens "(int a, List<)" = .ok ts := by decide +kernel
  have hparse : parse "(int a, List<)" = .error cause := by
    rw [parse, htokens]
    rfl
  obtain ⟨fault, k, hfault, hle, hrest, hviable, htoken, -⟩ := fault_earliest htokens (by decide) hparse
  obtain rfl : ⟨.type, [.closeParen]⟩ = fault := Cause.grammar.inj hfault
  have hk : k = 6 := by
    have hlength := congrArg List.length hrest
    rw [List.length_drop] at hlength
    simp only [ts, List.length_cons, List.length_nil] at hlength
    omega
  subst hk
  obtain ⟨hnot, hmessage⟩ := htoken (by decide)
  exact ⟨hparse, hviable, hnot, by rw [hmessage]; decide +kernel⟩

end TypeBridge.TypeExpr
