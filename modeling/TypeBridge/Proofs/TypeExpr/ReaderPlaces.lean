import TypeBridge.Proofs.TypeExpr.Grammar
import TypeBridge.Proofs.TypeExpr.Place

/-!
# The places of the readers

Every reader goes from place to place as the tokens lead it. When it stops with a fault, the tokens that it has taken
lead to a place from which the next one leads nowhere.

Results:
* `follows_readSuffixes`, `follows_readList`, `follows_readNamed`, `follows_readPrimary`, `follows_readType`: the
  readers.
* `ofTokens_isOk_iff`: the tokens of type expressions are those that lead to the end of a type outside of all brackets.
* `reaches_of_ofTokens_eq_error`: other tokens lead up to the fault and no further.
-/
namespace TypeBridge.TypeExpr

open Place (afterItem afterType afterPrimary afterName afterPart)

/-! ## Readers and places -/

/-- What it means that tokens lead from a place to another one, of which and of the tokens that are left something is
known. -/
def Reaches (place : Place) (P : Place → List Token → Prop) (ts rest : List Token) : Prop :=
  ∃ a last, ts = a ++ rest ∧ place.run a = some last ∧ P last rest

/-- What it means that tokens cannot go on from a place: the first of them leads nowhere, and where there is none, no
type ends outside of all brackets. -/
def Stuck (place : Place) : List Token → Prop
  | [] => ¬ place.Ends []
  | t :: _ => place.step t = none

/-- What it means that what was read goes from a place as the tokens lead it, and that a fault is found only where they
cannot go on. -/
def Follows {α : Type} (place : Place) (P : Place → List Token → Prop) (ts : List Token) :
    Except Fault (α × List Token) → Prop
  | .ok (_, rest) => Reaches place P ts rest
  | .error fault => Reaches place Stuck ts fault.rest

/-- What it means that a place is one after a type, from which the next token leads where `after` says. -/
structure EndsAt (around : List Enclosure) (after : Token → Option Place) (place : Place) (rest : List Token) :
    Prop where
  ends : place.Ends around
  step : ∀ t ∈ rest.head?, place.step t = after t

/-- What it means that a place is one after an item between brackets. -/
structure EndsItemAt (bracket : Enclosure) (around : List Enclosure) (place : Place) (rest : List Token) : Prop where
  not_ends : ¬ place.Ends []
  step : ∀ t ∈ rest.head?, place.step t = afterItem (bracket :: around) t

/-- What it means that a place is one after the last item between brackets. -/
structure EndsListAt (bracket : Enclosure) (around : List Enclosure) (place : Place) (rest : List Token) : Prop extends
    EndsItemAt bracket around place rest where
  not_comma : rest.head? ≠ some .comma

section Reaches

variable {α β : Type} {place next : Place} {P Q : Place → List Token → Prop} {t : Token} {ts rest rest' : List Token}
  {result : Except Fault (α × List Token)} {x : α} {fault : Fault}

theorem Reaches.here (h : P place ts) : Reaches place P ts ts := ⟨[], place, rfl, rfl, h⟩

theorem Reaches.cons (hstep : place.step t = some next) (h : Reaches next P ts rest) :
    Reaches place P (t :: ts) rest := by
  obtain ⟨a, last, rfl, hrun, hlast⟩ := h
  refine ⟨t :: a, last, rfl, ?_, hlast⟩
  rw [Place.run, hstep]
  exact hrun

theorem Reaches.trans (h : Reaches place P ts rest) (h' : ∀ last, P last rest → Reaches last Q rest rest') :
    Reaches place Q ts rest' := by
  obtain ⟨a, last, rfl, hrun, hlast⟩ := h
  obtain ⟨b, last', rfl, hrun', hlast'⟩ := h' last hlast
  refine ⟨a ++ b, last', (List.append_assoc a b rest').symm, ?_, hlast'⟩
  rw [Place.run_append, hrun]
  exact hrun'

theorem Reaches.mono (h : Reaches place P ts rest) (h' : ∀ last, P last rest → Q last rest) : Reaches place Q ts rest :=
  h.trans fun last hlast => .here (h' last hlast)

theorem Reaches.length_le (h : Reaches place P ts rest) : rest.length ≤ ts.length := by
  obtain ⟨a, -, rfl, -, -⟩ := h
  rw [List.length_append]
  exact Nat.le_add_left _ _

theorem Reaches.follows (h : Reaches place P ts rest) (h' : ∀ last, P last rest → Follows last Q rest result) :
    Follows place Q ts result := by
  cases result with
  | error fault => exact h.trans h'
  | ok found => exact h.trans h'

theorem Follows.cons (hstep : place.step t = some next) (h : Follows next P ts result) :
    Follows place P (t :: ts) result := by
  cases result with
  | error fault => exact Reaches.cons hstep h
  | ok found => exact Reaches.cons hstep h

theorem Follows.of_ok (h : Follows place P ts result) (hresult : result = .ok (x, rest)) : Reaches place P ts rest := by
  rwa [hresult] at h

theorem Follows.of_error (h : Follows place P ts result) (hresult : result = .error fault) :
    Follows place Q ts (.error fault : Except Fault (β × List Token)) := by
  rwa [hresult] at h

end Reaches

/-! ## Suffixes -/

theorem EndsAt.next {around : List Enclosure} {after after' : Token → Option Place} {place : Place} {ts : List Token}
    (h : EndsAt around after place ts) (h' : ∀ t ∈ ts.head?, after t = after' t) : EndsAt around after' place ts :=
  ⟨h.ends, fun t ht => (h.step t ht).trans (h' t ht)⟩

theorem afterPrimary_eq {around : List Enclosure} {t : Token} (hquestion : t ≠ .question)
    (hbracket : t ≠ .openBracket) : afterPrimary around t = afterType around t := by
  cases t <;> first | rfl | contradiction

theorem afterName_eq {around : List Enclosure} {t : Token} (hless : t ≠ .less) :
    afterName around t = afterPrimary around t := by
  cases t <;> first | rfl | contradiction

theorem afterPart_eq {around : List Enclosure} {t : Token} (hdot : t ≠ .dot) :
    afterPart around t = afterName around t := by
  cases t <;> first | rfl | contradiction

theorem afterType_eq {around : List Enclosure} {t : Token} (hname : ∀ text, t ≠ .name text) :
    afterType around t = afterItem around t := by
  cases t with
  | name text => exact absurd rfl (hname text)
  | _ => cases around with
    | nil => rfl
    | cons bracket around => cases bracket <;> rfl

theorem stuck_rank {around : List Enclosure} {ts : List Token} (hcomma : ∀ rest, ts = .comma :: rest → False)
    (hclose : ∀ rest, ts = .closeBracket :: rest → False) : Stuck (.rank around) ts := by
  cases ts with
  | nil => nofun
  | cons t ts =>
    cases t with
    | comma => exact (hcomma ts rfl).elim
    | closeBracket => exact (hclose ts rfl).elim
    | _ => rfl

/-- Both readers of suffixes, by induction on the tokens that they still have to read. -/
theorem follows_readSuffixes_readRank (around : List Enclosure) :
    (∀ (base : TypeExpr) (ts : List Token), ∀ place, EndsAt around (afterPrimary around) place ts →
      Follows place (EndsAt around (afterType around)) ts (readSuffixes base ts)) ∧
    ∀ (base : TypeExpr) (rank : Nat) (ts : List Token),
      Follows (.rank around) (EndsAt around (afterType around)) ts (readRank base rank ts) := by
  apply readSuffixes.mutual_induct
  case case1 =>
    intro base ts ih place hplace
    exact .cons (hplace.step .question rfl) (ih (.suffix around) ⟨.suffix, fun _ _ => rfl⟩)
  case case2 =>
    intro base ts ih place hplace
    exact .cons (hplace.step .openBracket rfl) ih
  case case3 =>
    intro base ts hquestion hbracket place hplace
    rw [readSuffixes.eq_3 base ts hquestion hbracket]
    refine .here (hplace.next fun t ht => ?_)
    obtain ⟨rest, rfl⟩ := List.head?_eq_some_iff.1 ht
    exact afterPrimary_eq (fun heq => hquestion rest (heq ▸ rfl)) fun heq => hbracket rest (heq ▸ rfl)
  case case4 =>
    intro base rank ts ih
    exact .cons rfl ih
  case case5 =>
    intro base rank ts ih
    exact .cons rfl (ih (.suffix around) ⟨.suffix, fun _ _ => rfl⟩)
  case case6 =>
    intro base rank ts hcomma hclose
    rw [readRank.eq_3 base rank ts hcomma hclose]
    exact .here (stuck_rank hcomma hclose)

theorem follows_readSuffixes {around : List Enclosure} {place : Place} {ts : List Token} (base : TypeExpr)
    (h : EndsAt around (afterPrimary around) place ts) :
    Follows place (EndsAt around (afterType around)) ts (readSuffixes base ts) :=
  (follows_readSuffixes_readRank around).1 base ts place h

/-! ## Lists -/

/-- After the last item, only the bracket can be closed. -/
theorem EndsListAt.stuck {bracket : Enclosure} {around : List Enclosure} {place : Place} {ts : List Token}
    (h : EndsListAt bracket around place ts) (hclose : ts.head? ≠ some bracket.close) : Stuck place ts := by
  cases ts with
  | nil => exact h.not_ends
  | cons t ts =>
    have hstep : place.step t = none := by
      rw [h.step t rfl, afterItem, if_neg fun heq => h.not_comma (congrArg some heq),
        if_neg fun heq => hclose (congrArg some heq)]
    exact hstep

theorem afterItem_close (bracket : Enclosure) (around : List Enclosure) :
    afterItem (bracket :: around) bracket.close = some (.suffix around) := by
  cases bracket <;> rfl

section Lists

variable {α : Type} {item : Reader α} {bracket : Enclosure} {around : List Enclosure} {length : Nat}
  (hitem : ∀ ts : List Token, ts.length < length →
    Follows (.type (bracket :: around)) (EndsItemAt bracket around) ts (item ts))
include hitem

/-- The further items. There is no comma after the last of them, since at most as many are read as there are tokens. -/
theorem follows_readMore {n : Nat} {ts : List Token} {place : Place} (hn : ts.length ≤ n) (hlength : ts.length ≤ length)
    (hplace : EndsItemAt bracket around place ts) :
    Follows place (EndsListAt bracket around) ts (readMore item n ts) := by
  fun_induction readMore item n ts generalizing place with
  | case1 n ts fault hfault =>
    have hcomma := hplace.step .comma rfl
    exact .cons hcomma ((hitem ts hlength).of_error hfault)
  | case2 n ts x rest hx fault hfault ih =>
    have hcomma := hplace.step .comma rfl
    have hfirst := (hitem ts hlength).of_ok hx
    have hle := hfirst.length_le
    refine .cons hcomma (hfirst.follows fun last hlast => ?_)
    exact (ih (by grind) (by grind) hlast).of_error hfault
  | case3 n ts x rest hx xs rest' hxs ih =>
    have hcomma := hplace.step .comma rfl
    have hfirst := (hitem ts hlength).of_ok hx
    have hle := hfirst.length_le
    refine .cons hcomma (hfirst.follows fun last hlast => ?_)
    exact (ih (by grind) (by grind) hlast).of_ok hxs
  | case4 n ts h =>
    have hcomma : ts.head? ≠ some .comma := by
      intro hhead
      obtain ⟨rest, rfl⟩ := List.head?_eq_some_iff.1 hhead
      obtain ⟨m, rfl⟩ := Nat.exists_eq_add_one.2 (Nat.lt_of_lt_of_le (Nat.zero_lt_succ _) hn)
      exact h m rest rfl rfl
    exact .here ⟨hplace, hcomma⟩

/-- A list, after which its bracket is closed. -/
theorem follows_readList {ts : List Token} (hlength : ts.length < length) :
    Follows (.type (bracket :: around)) (EndsAt around (afterPrimary around)) ts (readList item bracket.close ts) := by
  have hitem' := hitem ts hlength
  unfold readList
  split
  case h_1 fault hfault => exact hitem'.of_error hfault
  case h_2 x rest hx =>
    have hfirst := hitem'.of_ok hx
    have hmore (last : Place) (hlast : EndsItemAt bracket around last rest) :=
      follows_readMore hitem (Nat.le_refl _) (Nat.le_trans hfirst.length_le (Nat.le_of_lt hlength)) hlast
    refine hfirst.follows fun last hlast => ?_
    split
    case h_1 fault hfault => exact (hmore last hlast).of_error hfault
    case h_2 xs hxs =>
      refine ((hmore last hlast).of_ok hxs).mono fun last' hlast' => ?_
      exact hlast'.stuck nofun
    case h_3 xs t rest' hxs =>
      have hreach := (hmore last hlast).of_ok hxs
      split
      case isTrue heq =>
        refine hreach.trans fun last' hlast' => .cons ?_ (.here ⟨.suffix, fun _ _ => rfl⟩)
        rw [hlast'.step t rfl, heq]
        exact afterItem_close bracket around
      case isFalse hne =>
        refine hreach.mono fun last' hlast' => ?_
        exact hlast'.stuck fun heq => hne (Option.some.inj heq)

end Lists

/-! ## Names -/

theorem stuck_part {around : List Enclosure} {ts : List Token} (h : ∀ text rest, ts = .name text :: rest → False) :
    Stuck (.part around) ts := by
  cases ts with
  | nil => nofun
  | cons t ts =>
    cases t with
    | name text => exact (h text ts rfl).elim
    | _ => rfl

theorem follows_readSegments {around : List Enclosure} {place : Place} {ts : List Token}
    (h : EndsAt around (afterPart around) place ts) :
    Follows place (EndsAt around (afterName around)) ts (readSegments ts) := by
  fun_induction readSegments ts generalizing place with
  | case1 text ts fault hfault ih =>
    have hnext := @ih (.name around) ⟨.name, fun _ _ => rfl⟩
    exact .cons (h.step .dot rfl) (.cons rfl (hnext.of_error hfault))
  | case2 text ts segments rest hsegments ih =>
    have hnext := @ih (.name around) ⟨.name, fun _ _ => rfl⟩
    exact .cons (h.step .dot rfl) (.cons rfl (hnext.of_ok hsegments))
  | case3 ts hname => exact .cons (h.step .dot rfl) (.here (stuck_part hname))
  | case4 ts _ hdot =>
    refine .here (h.next fun t ht => ?_)
    obtain ⟨rest, rfl⟩ := List.head?_eq_some_iff.1 ht
    exact afterPart_eq fun heq => hdot rest (heq ▸ rfl)

/-- A name, which ends before the brackets of its arguments. -/
theorem follows_readName {around : List Enclosure} {place : Place} {ts : List Token} (first : String)
    (h : EndsAt around (afterPart around) place ts) :
    Follows place (EndsAt around (afterName around)) ts (readName first ts) := by
  have hsegments := follows_readSegments h
  unfold readName
  split
  case h_1 fault hfault => exact hsegments.of_error hfault
  case h_2 segments rest heq => exact hsegments.of_ok heq

/-! ## Types -/

theorem stuck_type {around : List Enclosure} {ts : List Token} (hparen : ∀ rest, ts = .openParen :: rest → False)
    (hname : ∀ text rest, ts = .name text :: rest → False) : Stuck (.type around) ts := by
  cases ts with
  | nil => nofun
  | cons t ts =>
    cases t with
    | openParen => exact (hparen ts rfl).elim
    | name text => exact (hname text ts rfl).elim
    | _ => rfl

/-- The first identifier of a type, unless it is `global` and `::` follows it. -/
theorem endsAt_first {around : List Enclosure} {first : String} {ts : List Token}
    (h : ∀ rest, ts = .alias :: rest → first = "global" → False) :
    EndsAt around (afterPart around) (if first = "global" then .global around else .name around) ts := by
  split
  case isTrue hglobal =>
    refine ⟨.global, fun t ht => ?_⟩
    obtain ⟨rest, rfl⟩ := List.head?_eq_some_iff.1 ht
    by_cases halias : t = .alias
    · exact (h rest (halias ▸ rfl) hglobal).elim
    · cases t <;> first | rfl | contradiction
  case isFalse => exact ⟨.name, fun _ _ => rfl⟩

section Types

variable {type : Reader TypeExpr} {length : Nat}
  (htype : ∀ (around : List Enclosure) (ts : List Token), ts.length < length →
    Follows (.type around) (EndsAt around (afterType around)) ts (type ts))
include htype

theorem follows_argument (around : List Enclosure) {ts : List Token} (hlength : ts.length < length) :
    Follows (.type (.arguments :: around)) (EndsItemAt .arguments around) ts (type ts) := by
  have hfirst := htype (.arguments :: around) ts hlength
  cases hresult : type ts with
  | error fault => exact hfirst.of_error hresult
  | ok found =>
    exact (hfirst.of_ok hresult).mono fun last hlast => ⟨hlast.ends.not_nil, hlast.step⟩

theorem follows_readElement (around : List Enclosure) {ts : List Token} (hlength : ts.length < length) :
    Follows (.type (.parentheses :: around)) (EndsItemAt .parentheses around) ts (readElement type ts) := by
  have hfirst := htype (.parentheses :: around) ts hlength
  unfold readElement
  split
  case h_1 fault hfault => exact hfirst.of_error hfault
  case h_2 t label rest heq =>
    refine (hfirst.of_ok heq).trans fun last hlast => .cons (hlast.step (.name label) rfl) (.here ?_)
    exact ⟨nofun, fun _ _ => rfl⟩
  case h_3 t rest hlabel heq =>
    refine (hfirst.of_ok heq).mono fun last hlast => ⟨hlast.ends.not_nil, fun next hnext => ?_⟩
    obtain ⟨rest', rfl⟩ := List.head?_eq_some_iff.1 hnext
    rw [hlast.step next rfl]
    exact afterType_eq fun label heq' => hlabel label rest' (heq' ▸ rfl)

/-- A name and its arguments. -/
theorem follows_readNamed {around : List Enclosure} {place : Place} {ts : List Token} (first : String)
    (hlength : ts.length ≤ length) (h : EndsAt around (afterPart around) place ts) :
    Follows place (EndsAt around (afterPrimary around)) ts (readNamed type first ts) := by
  have hname := follows_readName first h
  unfold readNamed
  split
  case h_1 fault hfault => exact hname.of_error hfault
  case h_2 name rest heq =>
    have hreach := hname.of_ok heq
    have hlist := follows_readList (fun _ => follows_argument htype around) (Nat.le_trans hreach.length_le hlength)
    refine hreach.follows fun last hlast => .cons (hlast.step .less rfl) ?_
    split
    case h_1 fault hfault => exact hlist.of_error hfault
    case h_2 arguments rest' hrest => exact hlist.of_ok hrest
  case h_3 name rest hless heq =>
    refine (hname.of_ok heq).mono fun last hlast => hlast.next fun t ht => ?_
    obtain ⟨rest', rfl⟩ := List.head?_eq_some_iff.1 ht
    exact afterName_eq fun heq' => hless rest' (heq' ▸ rfl)

theorem follows_readPrimary (around : List Enclosure) {ts : List Token} (hlength : ts.length ≤ length) :
    Follows (.type around) (EndsAt around (afterPrimary around)) ts (readPrimary type ts) := by
  unfold readPrimary
  split
  case h_1 rest =>
    have hlist := follows_readList (fun _ => follows_readElement htype around) hlength
    refine .cons rfl ?_
    split
    case h_1 fault hfault => exact hlist.of_error hfault
    case h_2 elements rest' hrest => exact hlist.of_ok hrest
  case h_2 first rest =>
    have hnamed := @follows_readNamed _ _ htype around (.name around) rest first (by grind) ⟨.name, fun _ _ => rfl⟩
    exact .cons rfl (.cons rfl (.cons rfl hnamed))
  case h_3 rest hname => exact .cons rfl (.cons rfl (.here (stuck_part hname)))
  case h_4 first rest _ halias =>
    exact .cons rfl (follows_readNamed htype first (by grind) (endsAt_first halias))
  case h_5 hparen _ _ hname => exact .here (stuck_type hparen hname)

end Types

theorem follows_readType {depth : Nat} {ts : List Token} (around : List Enclosure) (hdepth : ts.length < depth) :
    Follows (.type around) (EndsAt around (afterType around)) ts (readType depth ts) := by
  induction depth generalizing around ts with
  | zero => contradiction
  | succ depth ih =>
    have hprimary := follows_readPrimary (fun around _ => ih around) around (Nat.le_of_lt_succ hdepth)
    unfold readType
    split
    case h_1 fault hfault => exact hprimary.of_error hfault
    case h_2 base rest hbase =>
      exact (hprimary.of_ok hbase).follows fun last hlast => follows_readSuffixes base hlast

/-! ## Whole lists of tokens -/

theorem Stuck.not_ends {place last : Place} {ts : List Token} (h : Stuck place ts) (hrun : place.run ts = some last) :
    ¬ last.Ends [] := by
  cases ts with
  | nil =>
    cases hrun
    exact h
  | cons t ts =>
    rw [Place.run, show place.step t = none from h] at hrun
    cases hrun

theorem run_of_ofTokens_eq_ok {ts : List Token} {type : TypeExpr} (h : ofTokens ts = .ok type) :
    ∃ last, (Place.type []).run ts = some last ∧ last.Ends [] := by
  have hread := follows_readType [] (Nat.lt_succ_self ts.length)
  unfold ofTokens at h
  split at h
  · cases h
  · rename_i type' heq
    obtain ⟨a, last, rfl, hrun, hlast⟩ := hread.of_ok heq
    exact ⟨last, by rwa [List.append_nil], hlast.ends⟩
  · cases h

theorem reaches_of_ofTokens_eq_error {ts : List Token} {fault : Fault} (h : ofTokens ts = .error fault) :
    Reaches (.type []) Stuck ts fault.rest := by
  have hread := follows_readType [] (Nat.lt_succ_self ts.length)
  unfold ofTokens at h
  split at h
  · rename_i fault' heq
    cases h
    rwa [heq] at hread
  · cases h
  · rename_i type rest hrest heq
    cases h
    refine (hread.of_ok heq).mono fun last hlast => ?_
    cases rest with
    | nil => exact (hrest rfl).elim
    | cons t rest => exact hlast.step t rfl

/-- The tokens of type expressions are those that lead to the end of a type outside of all brackets. -/
theorem ofTokens_isOk_iff {ts : List Token} :
    (∃ type, ofTokens ts = .ok type) ↔ ∃ last, (Place.type []).run ts = some last ∧ last.Ends [] := by
  constructor
  · rintro ⟨type, h⟩
    exact run_of_ofTokens_eq_ok h
  · rintro ⟨last, hrun, hends⟩
    cases hresult : ofTokens ts with
    | ok type => exact ⟨type, rfl⟩
    | error fault =>
      obtain ⟨a, place, hts, hplace, hstuck⟩ := reaches_of_ofTokens_eq_error hresult
      rw [hts, Place.run_append, hplace] at hrun
      exact absurd hends (hstuck.not_ends hrun)

end TypeBridge.TypeExpr
