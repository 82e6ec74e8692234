import TypeBridge.Proofs.TypeExpr.Grammar

/-!
# Reading token by token

The readers take tokens apart by matching. Here the same grammar is read by looking at the next token and taking it in a
second step, which fails where there is no token left. It never does: what is read in this way is what the readers read,
with the same faults. What repeats has a number of steps, for which the number of tokens is enough.

Results:
* `list_eq`, `segments_eq`, `primary_eq`, `type_eq`: the parts of the grammar.
* `descend_eq`: whole lists of tokens.
-/
namespace TypeBridge.TypeExpr

/-- Why reading token by token stops: at a fault, or since a token was taken where none was left. -/
inductive Stop where
  | fault (fault : Fault)
  | exhausted
  deriving DecidableEq, Repr

/-- What is wrong with the tokens. -/
def Stop.message : Stop → String
  | .fault reason => reason.message
  | .exhausted => "unexpected end of type expression"

/-- Reads some part of the grammar token by token. -/
abbrev Descent (α : Type) := List Token → Except Stop (α × List Token)

namespace Descent

/-! ## Single tokens -/

/-- Whether an identifier comes next. -/
def isName : Option Token → Bool
  | some (.name _) => true
  | _ => false

/-- Takes the next token. -/
def advance : Descent Token
  | [] => .error .exhausted
  | t :: ts => .ok (t, ts)

/-- Takes the next token if it is the given one. -/
def expect (t : Token) : Descent Token := fun ts =>
  if ts.head? = some t then advance ts else .error (.fault ⟨.token t, ts⟩)

/-- Takes the next token if it is an identifier. -/
def expectName : Descent String := fun ts =>
  if isName ts.head? then do
    let (t, ts) ← advance ts
    return (t.text, ts)
  else .error (.fault ⟨.name, ts⟩)

/-! ## The grammar -/

/-- The rank of an array after the opening bracket, which the commas make higher. -/
def rank : (steps least : Nat) → Descent Nat
  | steps + 1, r, ts =>
    if ts.head? = some .comma then do
      let (_, ts) ← advance ts
      rank steps (r + 1) ts
    else .ok (r, ts)
  | 0, r, ts => .ok (r, ts)

/-- The suffixes that follow a type. -/
def suffixes : (steps : Nat) → TypeExpr → Descent TypeExpr
  | steps + 1, type, ts =>
    if ts.head? = some .question then do
      let (_, ts) ← advance ts
      suffixes steps (.nullable type) ts
    else if ts.head? = some .openBracket then do
      let (_, ts) ← advance ts
      let (r, ts) ← rank ts.length 1 ts
      let (_, ts) ← expect .closeBracket ts
      suffixes steps (.array type r) ts
    else .ok (type, ts)
  | 0, type, ts => .ok (type, ts)

/-- The items that follow the first one, each after a comma. -/
def more {α : Type} (item : Descent α) : (steps : Nat) → Descent (List α)
  | steps + 1, ts =>
    if ts.head? = some .comma then do
      let (_, ts) ← advance ts
      let (x, ts) ← item ts
      let (xs, ts) ← more item steps ts
      return (x :: xs, ts)
    else .ok ([], ts)
  | 0, ts => .ok ([], ts)

/-- Items separated by commas, and the token that closes them. -/
def list {α : Type} (item : Descent α) (close : Token) : Descent (List α) := fun ts => do
  let (x, ts) ← item ts
  let (xs, ts) ← more item ts.length ts
  let (_, ts) ← expect close ts
  return (x :: xs, ts)

/-- The parts of a name after the first, each after a dot. -/
def segments : (steps : Nat) → Descent (List String)
  | steps + 1, ts =>
    if ts.head? = some .dot then do
      let (_, ts) ← advance ts
      let (text, ts) ← expectName ts
      let (texts, ts) ← segments steps ts
      return (text :: texts, ts)
    else .ok ([], ts)
  | 0, ts => .ok ([], ts)

/-- The first identifier of a name, without `global::` before it. -/
def first : Descent String := fun ts => do
  let (t, ts) ← advance ts
  if t.text = "global" ∧ ts.head? = some .alias then
    let (_, ts) ← advance ts
    expectName ts
  else return (t.text, ts)

/-- A name and the arguments that it is applied to. -/
def named (type : Descent TypeExpr) : Descent TypeExpr := fun ts => do
  let (text, ts) ← first ts
  let (texts, ts) ← segments ts.length ts
  if ts.head? = some .less then
    let (_, ts) ← advance ts
    let (arguments, ts) ← list type .greater ts
    return (.generic (.ofSegments text texts) arguments, ts)
  else return (.named (.ofSegments text texts), ts)

/-- An element of a tuple. -/
def element (type : Descent TypeExpr) : Descent (Option String × TypeExpr) := fun ts => do
  let (t, ts) ← type ts
  if isName ts.head? then
    let (label, ts) ← advance ts
    return ((some label.text, t), ts)
  else return ((none, t), ts)

/-- A primary type. -/
def primary (type : Descent TypeExpr) : Descent TypeExpr := fun ts =>
  if ts.head? = some .openParen then do
    let (_, ts) ← expect .openParen ts
    let (elements, ts) ← list (element type) .closeParen ts
    return (ofElements elements, ts)
  else if isName ts.head? then named type ts
  else .error (.fault ⟨.type, ts⟩)

/-- A type whose types are nested less deep than the given number. -/
def type : (depth : Nat) → Descent TypeExpr
  | 0, ts => .error (.fault ⟨.type, ts⟩)
  | depth + 1, ts => do
    let (base, ts) ← primary (type depth) ts
    suffixes ts.length base ts

end Descent

/-- The type that a list of tokens denotes, read token by token. -/
def descend (ts : List Token) : Except Stop TypeExpr := do
  let (type, rest) ← Descent.type (ts.length + 1) ts
  if rest = [] then return type else .error (.fault ⟨.nothing, rest⟩)

namespace Descent

/-! ## What is read -/

section Steps

variable {α β : Type}

theorem ok_bind (x : α) (f : α → Except Stop β) : (Except.ok x >>= f) = f x := rfl

theorem mapError_ok (x : α) : (Except.ok x : Except Fault α).mapError Stop.fault = .ok x := rfl

theorem advance_cons (t : Token) (ts : List Token) : advance (t :: ts) = .ok (t, ts) := rfl

theorem expect_cons (t u : Token) (ts : List Token) :
    expect t (u :: ts) = if u = t then .ok (u, ts) else .error (.fault ⟨.token t, u :: ts⟩) := by
  simp only [expect, List.head?_cons, Option.some.injEq, advance_cons]

end Steps

/-- The brackets of an array, when what follows them is read like suffixes. -/
theorem rank_eq {next : TypeExpr → Descent TypeExpr} {steps count r : Nat} {ts : List Token} (base : TypeExpr)
    (hnext : ∀ base (ts : List Token), ts.length ≤ count → next base ts = (readSuffixes base ts).mapError .fault)
    (hsteps : ts.length ≤ steps) (hcount : ts.length ≤ count + 1) :
    (do let (r, ts) ← rank steps r ts
        let (_, ts) ← expect .closeBracket ts
        next (.array base r) ts) = (readRank base r ts).mapError .fault := by
  induction ts generalizing steps r with
  | nil => cases steps <;> rfl
  | cons t ts ih =>
    obtain ⟨steps, rfl⟩ := Nat.exists_eq_add_one.2 (Nat.lt_of_lt_of_le (Nat.zero_lt_succ _) hsteps)
    cases t with
    | comma => exact ih (Nat.le_of_succ_le_succ hsteps) (Nat.le_of_succ_le hcount)
    | closeBracket => exact hnext _ ts (Nat.le_of_succ_le_succ hcount)
    | _ => rfl

theorem suffixes_eq {steps : Nat} {ts : List Token} (base : TypeExpr) (hsteps : ts.length ≤ steps) :
    suffixes steps base ts = (readSuffixes base ts).mapError .fault := by
  induction steps generalizing base ts with
  | zero =>
    cases List.eq_nil_of_length_eq_zero (Nat.le_zero.1 hsteps)
    rfl
  | succ steps ih =>
    cases ts with
    | nil => rfl
    | cons t ts =>
      have hle := Nat.le_of_succ_le_succ hsteps
      cases t with
      | question => exact ih _ hle
      | openBracket => exact rank_eq base (fun base _ => ih base) (Nat.le_refl _) (Nat.le_succ_of_le hle)
      | _ => rfl

section Lists

variable {α : Type} {item : Descent α} {reader : Reader α} (hitem : ∀ ts, item ts = (reader ts).mapError .fault)
include hitem

theorem more_eq (steps : Nat) (ts : List Token) : more item steps ts = (readMore reader steps ts).mapError .fault := by
  induction steps generalizing ts with
  | zero => cases ts <;> rfl
  | succ steps ih =>
    cases ts with
    | nil => rfl
    | cons t ts =>
      cases t with
      | comma =>
        simp only [more, readMore, List.head?_cons, if_true, advance_cons, ok_bind, hitem]
        rcases reader ts with fault | ⟨x, rest⟩
        · rfl
        · simp only [mapError_ok, ok_bind, ih]
          rcases readMore reader steps rest with fault | ⟨xs, rest⟩ <;> rfl
      | _ => rfl

theorem list_eq (close : Token) (ts : List Token) :
    list item close ts = (readList reader close ts).mapError .fault := by
  rw [list, readList, hitem]
  rcases reader ts with fault | ⟨x, rest⟩
  · rfl
  · simp only [mapError_ok, ok_bind, more_eq hitem]
    rcases readMore reader rest.length rest with fault | ⟨xs, _ | ⟨t, rest⟩⟩
    · rfl
    · rfl
    · by_cases heq : t = close
      · simp only [mapError_ok, ok_bind, expect_cons, if_pos heq]
        rfl
      · simp only [mapError_ok, ok_bind, expect_cons, if_neg heq]
        rfl

end Lists

theorem expectName_eq {ts : List Token} (h : ∀ text rest, ts = .name text :: rest → False) :
    expectName ts = .error (.fault ⟨.name, ts⟩) := by
  cases ts with
  | nil => rfl
  | cons t ts =>
    cases t with
    | name text => exact (h text ts rfl).elim
    | _ => rfl

theorem segments_dot (steps : Nat) (text : String) (ts : List Token) :
    segments (steps + 1) (.dot :: .name text :: ts) =
      (segments steps ts >>= fun found => .ok (text :: found.1, found.2)) := rfl

theorem segments_eq {steps : Nat} {ts : List Token} (hsteps : ts.length ≤ steps) :
    segments steps ts = (readSegments ts).mapError .fault := by
  fun_induction readSegments ts generalizing steps with
  | case1 text ts fault hfault ih =>
    obtain ⟨steps, rfl⟩ := Nat.exists_eq_add_one.2 (Nat.lt_of_lt_of_le (Nat.zero_lt_succ _) hsteps)
    rw [segments_dot, ih (by grind), hfault]
    rfl
  | case2 text ts texts rest htexts ih =>
    obtain ⟨steps, rfl⟩ := Nat.exists_eq_add_one.2 (Nat.lt_of_lt_of_le (Nat.zero_lt_succ _) hsteps)
    rw [segments_dot, ih (by grind), htexts]
    rfl
  | case3 ts hname =>
    obtain ⟨steps, rfl⟩ := Nat.exists_eq_add_one.2 (Nat.lt_of_lt_of_le (Nat.zero_lt_succ _) hsteps)
    simp only [segments, List.head?_cons, if_true, advance_cons, ok_bind, expectName_eq hname]
    rfl
  | case4 ts _ hdot =>
    have hhead : ts.head? ≠ some .dot := by
      intro heq
      obtain ⟨rest, rfl⟩ := List.head?_eq_some_iff.1 heq
      exact hdot rest rfl
    cases steps with
    | zero => rfl
    | succ steps => exact if_neg hhead

section Types

variable {item : Descent TypeExpr} {reader : Reader TypeExpr} (hitem : ∀ ts, item ts = (reader ts).mapError .fault)
include hitem

theorem element_eq (ts : List Token) : element item ts = (readElement reader ts).mapError .fault := by
  rw [element, readElement, hitem]
  rcases reader ts with fault | ⟨x, _ | ⟨t, rest⟩⟩
  · rfl
  · rfl
  · cases t <;> rfl

theorem named_eq {text : String} {ts rest : List Token} (h : first ts = .ok (text, rest)) :
    named item ts = (readNamed reader text rest).mapError .fault := by
  simp only [named, h, ok_bind, segments_eq (Nat.le_refl rest.length), readNamed, readName]
  rcases readSegments rest with fault | ⟨texts, _ | ⟨t, rest'⟩⟩
  · rfl
  · rfl
  · cases t with
    | less =>
      simp only [mapError_ok, ok_bind, List.head?_cons, if_true, advance_cons, list_eq hitem]
      rcases readList reader .greater rest' with fault | ⟨arguments, rest''⟩ <;> rfl
    | _ => rfl

theorem primary_eq (ts : List Token) : primary item ts = (readPrimary reader ts).mapError .fault := by
  rcases ts with _ | ⟨t, ts⟩
  · rfl
  · cases t with
    | openParen =>
      simp only [primary, readPrimary, List.head?_cons, if_true, expect_cons, ok_bind,
        list_eq (element_eq hitem)]
      rcases readList (readElement reader) .closeParen ts with fault | ⟨elements, rest⟩ <;> rfl
    | name text =>
      by_cases hglobal : text = "global" ∧ ts.head? = some .alias
      · obtain ⟨rfl, halias⟩ := hglobal
        obtain ⟨rest, rfl⟩ := List.head?_eq_some_iff.1 halias
        rcases rest with _ | ⟨t, rest⟩
        · rfl
        · cases t with
          | name text => exact named_eq hitem rfl
          | _ => rfl
      · have hfirst : first (.name text :: ts) = .ok (text, ts) := if_neg hglobal
        have halias (rest : List Token) (hts : ts = .alias :: rest) (htext : text = "global") : False :=
          hglobal ⟨htext, by rw [hts]; rfl⟩
        rw [readPrimary.eq_4 reader text ts (fun _ _ => halias _) halias]
        exact named_eq hitem hfirst
    | _ => rfl

end Types

theorem type_eq (depth : Nat) (ts : List Token) : type depth ts = (readType depth ts).mapError .fault := by
  induction depth generalizing ts with
  | zero => rfl
  | succ depth ih =>
    simp only [type, readType, primary_eq ih]
    rcases readPrimary (readType depth) ts with fault | ⟨base, rest⟩
    · rfl
    · exact suffixes_eq base (Nat.le_refl _)

end Descent

/-- What is read token by token is what the readers read, with the same faults, and no token is taken where none is
left. -/
theorem descend_eq (ts : List Token) : descend ts = (ofTokens ts).mapError .fault := by
  rw [descend, ofTokens, Descent.type_eq]
  rcases readType (ts.length + 1) ts with fault | ⟨type, _ | ⟨t, rest⟩⟩ <;> rfl

end TypeBridge.TypeExpr

