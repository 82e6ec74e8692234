import TypeBridge.TypeExpr.Reader

/-!
# The grammar of type expressions

The grammar as rules that derive lists of tokens, and the reader against it:

```
type     := primary suffix*
suffix   := '?' | '[' ','* ']'
primary  := '(' element (',' element)* ')' | named
element  := type [name]
named    := ['global' '::'] name ('.' name)* ['<' type (',' type)* '>']
```

Results:
* `readSuffixes_sound`, `readNamed_sound`, `readType_sound`: what a reader takes from the beginning of a
  list of tokens is derived by the grammar.
* `reads_of_derives`: a reader takes a derived list of tokens from the beginning of a longer one, when no
  token follows with which the type could go on.
* `ofTokens_eq_ok_iff`: whole lists of tokens denote what the grammar derives them for.
* `Derives.unique`: no list of tokens has two trees.
* `parse_eq_ok`: a text denotes what its tokens are derived for, and every other text is a fault.
-/
namespace TypeBridge.TypeExpr

/-- A part of the grammar with what it denotes. Suffixes make one type of another. -/
inductive Phrase where
  | type (type : TypeExpr)
  | suffixes (base type : TypeExpr)
  | primary (type : TypeExpr)
  | element (element : Option String × TypeExpr)
  | elements (elements : List (Option String × TypeExpr))
  | types (types : List TypeExpr)

/-- The parts of a name after the first, each after a dot. -/
def dotted (segments : List String) : List Token := segments.flatMap fun text => [.dot, .name text]

/-- The tokens of a name. -/
inductive IsName : TypeName → List Token → Prop
  | plain (first : String) (segments : List String) :
    IsName (.ofSegments first segments) (.name first :: dotted segments)
  | global (first : String) (segments : List String) :
    IsName (.ofSegments first segments) (.name "global" :: .alias :: .name first :: dotted segments)

/-- The rules of the grammar. -/
inductive Derives : Phrase → List Token → Prop
  | type {base type : TypeExpr} {a b : List Token} :
    Derives (.primary base) a → Derives (.suffixes base type) b → Derives (.type type) (a ++ b)
  | noSuffix {type : TypeExpr} : Derives (.suffixes type type) []
  | question {base type : TypeExpr} {a : List Token} :
    Derives (.suffixes (.nullable base) type) a → Derives (.suffixes base type) (.question :: a)
  | brackets {base type : TypeExpr} {a : List Token} (commas : Nat) :
    Derives (.suffixes (.array base (1 + commas)) type) a →
    Derives (.suffixes base type)
      (.openBracket :: (List.replicate commas .comma ++ .closeBracket :: a))
  | parentheses {type : TypeExpr} {a : List Token} :
    Derives (.type type) a → Derives (.primary type) (.openParen :: (a ++ [.closeParen]))
  | tuple {elements : List (Option String × TypeExpr)} {a : List Token} :
    Derives (.elements elements) a → (∀ type, elements ≠ [(none, type)]) →
    Derives (.primary (.tuple elements)) (.openParen :: (a ++ [.closeParen]))
  | named {name : TypeName} {a : List Token} : IsName name a → Derives (.primary (.named name)) a
  | generic {name : TypeName} {arguments : List TypeExpr} {a b : List Token} :
    IsName name a → Derives (.types arguments) b →
    Derives (.primary (.generic name arguments)) (a ++ .less :: (b ++ [.greater]))
  | unlabelled {type : TypeExpr} {a : List Token} :
    Derives (.type type) a → Derives (.element (none, type)) a
  | labelled {type : TypeExpr} {a : List Token} (label : String) :
    Derives (.type type) a → Derives (.element (some label, type)) (a ++ [.name label])
  | lastElement {element : Option String × TypeExpr} {a : List Token} :
    Derives (.element element) a → Derives (.elements [element]) a
  | moreElements {element : Option String × TypeExpr} {elements : List (Option String × TypeExpr)}
      {a b : List Token} :
    Derives (.element element) a → Derives (.elements elements) b →
    Derives (.elements (element :: elements)) (a ++ .comma :: b)
  | lastType {type : TypeExpr} {a : List Token} : Derives (.type type) a → Derives (.types [type]) a
  | moreTypes {type : TypeExpr} {types : List TypeExpr} {a b : List Token} :
    Derives (.type type) a → Derives (.types types) b → Derives (.types (type :: types)) (a ++ .comma :: b)

/-! ## What is read is derived -/

/-- Everything that a reader takes is related to what it gives. -/
def Sound {α : Type} (item : Reader α) (D : α → List Token → Prop) : Prop :=
  ∀ ts x rest, item ts = .ok (x, rest) → ∃ a, ts = a ++ rest ∧ D x a

/-- Items with commas between them. -/
inductive Separated {α : Type} (D : α → List Token → Prop) : List α → List Token → Prop
  | last {x : α} {a : List Token} : D x a → Separated D [x] a
  | more {x : α} {xs : List α} {a b : List Token} :
    D x a → Separated D xs b → Separated D (x :: xs) (a ++ .comma :: b)

/-- Both readers of suffixes, by induction on the tokens that they still have to read. -/
theorem readSuffixes_readRank_sound :
    (∀ (base : TypeExpr) (ts : List Token), ∀ type rest, readSuffixes base ts = .ok (type, rest) →
      ∃ a, ts = a ++ rest ∧ Derives (.suffixes base type) a) ∧
    ∀ (base : TypeExpr) (rank : Nat) (ts : List Token), ∀ type rest,
      readRank base rank ts = .ok (type, rest) →
      ∃ commas a, ts = List.replicate commas .comma ++ .closeBracket :: (a ++ rest) ∧
        Derives (.suffixes (.array base (rank + commas)) type) a := by
  apply readSuffixes.mutual_induct
  case case1 =>
    intro base ts ih type rest h
    obtain ⟨a, rfl, ha⟩ := ih type rest h
    exact ⟨.question :: a, rfl, .question ha⟩
  case case2 =>
    intro base ts ih type rest h
    obtain ⟨commas, a, rfl, ha⟩ := ih type rest h
    exact ⟨_, by simp, .brackets commas ha⟩
  case case3 =>
    intro base ts hq hb type rest h
    rw [readSuffixes.eq_3 base ts hq hb] at h
    cases h
    exact ⟨[], rfl, .noSuffix⟩
  case case4 =>
    intro base rank ts ih type rest h
    obtain ⟨commas, a, rfl, ha⟩ := ih type rest h
    refine ⟨commas + 1, a, by simp [List.replicate_succ], ?_⟩
    rwa [show rank + (commas + 1) = rank + 1 + commas by omega]
  case case5 =>
    intro base rank ts ih type rest h
    obtain ⟨a, rfl, ha⟩ := ih type rest h
    exact ⟨0, a, rfl, ha⟩
  case case6 =>
    intro base rank ts hc hb type rest h
    rw [readRank.eq_3 base rank ts hc hb] at h
    cases h

theorem readSuffixes_sound {base type : TypeExpr} {ts rest : List Token}
    (h : readSuffixes base ts = .ok (type, rest)) :
    ∃ a, ts = a ++ rest ∧ Derives (.suffixes base type) a :=
  readSuffixes_readRank_sound.1 base ts type rest h

/-- The further items begin with the comma that stands before the first of them. -/
theorem readMore_sound {α : Type} {item : Reader α} {D : α → List Token → Prop} (hitem : Sound item D)
    {n : Nat} {ts : List Token} {xs : List α} {rest : List Token}
    (h : readMore item n ts = .ok (xs, rest)) :
    (xs = [] ∧ ts = rest) ∨ ∃ a, ts = .comma :: (a ++ rest) ∧ Separated D xs a := by
  fun_induction readMore item n ts generalizing xs rest with
  | case1 => cases h
  | case2 => cases h
  | case3 n ts x ts' hx ys rest' hys ih =>
    cases h
    obtain ⟨a, rfl, ha⟩ := hitem ts x ts' hx
    right
    rcases ih hys with ⟨rfl, rfl⟩ | ⟨b, rfl, hb⟩
    · exact ⟨a, rfl, .last ha⟩
    · exact ⟨a ++ .comma :: b, by simp, .more ha hb⟩
  | case4 => cases h; exact .inl ⟨rfl, rfl⟩

theorem readList_sound {α : Type} {item : Reader α} {D : α → List Token → Prop} (hitem : Sound item D)
    {close : Token} {ts : List Token} {xs : List α} {rest : List Token}
    (h : readList item close ts = .ok (xs, rest)) :
    ∃ a, ts = a ++ close :: rest ∧ Separated D xs a := by
  unfold readList at h
  split at h
  · cases h
  · rename_i x ts' hx
    obtain ⟨a, rfl, ha⟩ := hitem ts x ts' hx
    split at h
    · cases h
    · cases h
    · rename_i ys t ts'' hmore
      split at h
      · rename_i hclose
        cases h
        subst hclose
        rcases readMore_sound hitem hmore with ⟨rfl, rfl⟩ | ⟨b, rfl, hb⟩
        · exact ⟨a, rfl, .last ha⟩
        · exact ⟨a ++ .comma :: b, by simp, .more ha hb⟩
      · cases h

theorem readSegments_sound {ts : List Token} {segments : List String} {rest : List Token}
    (h : readSegments ts = .ok (segments, rest)) : ts = dotted segments ++ rest := by
  fun_induction readSegments ts generalizing segments rest with
  | case1 => cases h
  | case2 text ts segments' rest' hs ih =>
    cases h
    simp [dotted, ih hs]
  | case3 => cases h
  | case4 => cases h; rfl

theorem readName_sound {first : String} {ts : List Token} {name : TypeName} {rest : List Token}
    (h : readName first ts = .ok (name, rest)) :
    ∃ segments, name = .ofSegments first segments ∧ ts = dotted segments ++ rest := by
  unfold readName at h
  split at h
  · cases h
  · rename_i segments ts' hs
    cases h
    exact ⟨segments, rfl, readSegments_sound hs⟩

theorem Separated.derives_types {types : List TypeExpr} {a : List Token}
    (h : Separated (fun t a => Derives (.type t) a) types a) : Derives (.types types) a := by
  induction h with
  | last h => exact .lastType h
  | more h _ ih => exact .moreTypes h ih

theorem Separated.derives_elements {elements : List (Option String × TypeExpr)} {a : List Token}
    (h : Separated (fun e a => Derives (.element e) a) elements a) : Derives (.elements elements) a := by
  induction h with
  | last h => exact .lastElement h
  | more h _ ih => exact .moreElements h ih

/-- Elements in parentheses are derived as the type that they denote. -/
theorem derives_ofElements {elements : List (Option String × TypeExpr)} {a : List Token}
    (h : Derives (.elements elements) a) :
    Derives (.primary (ofElements elements)) (.openParen :: (a ++ [.closeParen])) := by
  unfold ofElements
  split
  · cases h with
    | lastElement h => cases h with | unlabelled h => exact .parentheses h
    | moreElements _ h => cases h
  · rename_i hne
    exact .tuple h hne

section

variable {type : Reader TypeExpr} (htype : Sound type fun t a => Derives (.type t) a)
include htype

/-- What begins with a name is that name, or a generic type when arguments follow. The name itself may
begin before the tokens that are read. -/
theorem readNamed_sound {first : String} {start : List Token}
    (hstart : ∀ segments, IsName (.ofSegments first segments) (start ++ dotted segments))
    {ts : List Token} {t : TypeExpr} {rest : List Token} (h : readNamed type first ts = .ok (t, rest)) :
    ∃ a, start ++ ts = a ++ rest ∧ Derives (.primary t) a := by
  unfold readNamed at h
  split at h
  · cases h
  · rename_i name ts' hname
    obtain ⟨segments, rfl, rfl⟩ := readName_sound hname
    split at h
    · cases h
    · rename_i arguments ts'' hargs
      cases h
      obtain ⟨b, rfl, hb⟩ := readList_sound htype hargs
      refine ⟨(start ++ dotted segments) ++ .less :: (b ++ [.greater]), by simp, ?_⟩
      exact .generic (hstart segments) hb.derives_types
  · rename_i name ts' hname
    cases h
    obtain ⟨segments, rfl, rfl⟩ := readName_sound hname
    exact ⟨start ++ dotted segments, by simp, .named (hstart segments)⟩

theorem readElement_sound : Sound (readElement type) fun e a => Derives (.element e) a := by
  intro ts e rest h
  unfold readElement at h
  split at h
  · cases h
  · rename_i t label ts' ht
    cases h
    obtain ⟨a, rfl, ha⟩ := htype _ _ _ ht
    exact ⟨a ++ [.name label], by simp, .labelled label ha⟩
  · rename_i t ts' ht
    cases h
    obtain ⟨a, rfl, ha⟩ := htype _ _ _ ht
    exact ⟨a, rfl, .unlabelled ha⟩

theorem readPrimary_sound : Sound (readPrimary type) fun t a => Derives (.primary t) a := by
  intro ts t rest h
  unfold readPrimary at h
  split at h
  · split at h
    · cases h
    · rename_i elements ts' hes
      cases h
      obtain ⟨a, rfl, ha⟩ := readList_sound (readElement_sound htype) hes
      exact ⟨.openParen :: (a ++ [.closeParen]), by simp, derives_ofElements ha.derives_elements⟩
  · rename_i first ts'
    exact @readNamed_sound _ htype first [.name "global", .alias, .name first] (.global first) _ _ _ h
  · cases h
  · rename_i first ts' _ _
    exact @readNamed_sound _ htype first [.name first] (.plain first) _ _ _ h
  · cases h

end

theorem readType_sound (depth : Nat) : Sound (readType depth) fun t a => Derives (.type t) a := by
  induction depth with
  | zero => intro ts t rest h; cases h
  | succ depth ih =>
    intro ts t rest h
    unfold readType at h
    split at h
    · cases h
    · rename_i base ts' hbase
      obtain ⟨a, rfl, ha⟩ := readPrimary_sound ih _ _ _ hbase
      obtain ⟨b, rfl, hb⟩ := readSuffixes_sound h
      exact ⟨a ++ b, by simp, .type ha hb⟩

/-! ## What is derived is read -/

/-- No token comes first with which a name could go on. -/
structure EndsName (rest : List Token) : Prop where
  dot : rest.head? ≠ some .dot
  less : rest.head? ≠ some .less
  noAlias : rest.head? ≠ some .alias

/-- No token comes first with which a type could go on. -/
structure EndsType (rest : List Token) : Prop extends EndsName rest where
  question : rest.head? ≠ some .question
  openBracket : rest.head? ≠ some .openBracket

/-- A comma or the closing token comes first. -/
def EndsItem (close : Token) (rest : List Token) : Prop :=
  rest.head? = some .comma ∨ rest.head? = some close

theorem endsType_of_not_mem {rest : List Token}
    (h : rest.head? ∉ [some .dot, some .less, some .alias, some .question, some .openBracket]) :
    EndsType rest := by
  simp only [List.mem_cons, List.not_mem_nil, or_false, not_or] at h
  obtain ⟨hdot, hless, halias, hquestion, hbracket⟩ := h
  exact ⟨⟨hdot, hless, halias⟩, hquestion, hbracket⟩

theorem EndsItem.endsType {close : Token} {rest : List Token} (h : EndsItem close rest)
    (hclose : close = .closeParen ∨ close = .greater) : EndsType rest := by
  apply endsType_of_not_mem
  rcases hclose with rfl | rfl <;> rcases h with h | h <;> simp [h]

/-- The reader takes these tokens, whatever follows them among the given lists. -/
def Takes {α : Type} (item : Reader α) (ends : List Token → Prop) (x : α) (a : List Token) : Prop :=
  ∀ rest, ends rest → item (a ++ rest) = .ok (x, rest)

theorem readMore_of_head?_ne {α : Type} (item : Reader α) (n : Nat) {rest : List Token}
    (h : rest.head? ≠ some .comma) : readMore item n rest = .ok ([], rest) := by
  unfold readMore
  split
  · simp at h
  · rfl

section

variable {α : Type} {item : Reader α} {close : Token} (hclose : close ≠ .comma)
include hclose

theorem readMore_of_separated {xs : List α} {a : List Token}
    (h : Separated (Takes item (EndsItem close)) xs a) : ∀ n rest, (a ++ close :: rest).length ≤ n →
      readMore item (n + 1) (.comma :: (a ++ close :: rest)) = .ok (xs, close :: rest) := by
  induction h with
  | last hx =>
    intro n rest _
    have hstop : readMore item n (close :: rest) = .ok ([], close :: rest) :=
      readMore_of_head?_ne item n (by simpa using hclose)
    simp only [readMore, hx (close :: rest) (.inr rfl), hstop]
  | @more x xs a b hx _ ih =>
    intro n rest hn
    obtain ⟨m, rfl⟩ : ∃ m, n = m + 1 := ⟨n - 1, by simp at hn; omega⟩
    have htail := ih m rest (by simp at hn ⊢; omega)
    rw [List.append_assoc, List.cons_append, readMore, hx (.comma :: (b ++ close :: rest)) (.inl rfl)]
    simp only [htail]

theorem readList_of_separated {xs : List α} {a : List Token}
    (h : Separated (Takes item (EndsItem close)) xs a) (rest : List Token) :
    readList item close (a ++ close :: rest) = .ok (xs, rest) := by
  cases h with
  | last hx =>
    have hstop : readMore item (close :: rest).length (close :: rest) = .ok ([], close :: rest) :=
      readMore_of_head?_ne item _ (by simpa using hclose)
    simp only [readList, hx (close :: rest) (.inr rfl), hstop, if_true]
  | @more x xs a b hx hxs =>
    have htail := readMore_of_separated hclose hxs _ rest (Nat.le_refl _)
    rw [List.append_assoc, List.cons_append]
    simp only [readList, hx (.comma :: (b ++ close :: rest)) (.inl rfl), List.length_cons, htail, if_true]

end

theorem readSegments_dotted (segments : List String) {rest : List Token} (h : rest.head? ≠ some .dot) :
    readSegments (dotted segments ++ rest) = .ok (segments, rest) := by
  induction segments with
  | nil =>
    apply readSegments.eq_3
    · rintro text rest' rfl; exact h rfl
    · rintro rest' rfl; exact h rfl
  | cons text segments ih =>
    have : dotted (text :: segments) ++ rest = .dot :: .name text :: (dotted segments ++ rest) := by
      simp [dotted]
    rw [this, readSegments, ih]

theorem readNamed_of_endsName (type : Reader TypeExpr) (first : String) (segments : List String)
    {rest : List Token} (h : EndsName rest) :
    readNamed type first (dotted segments ++ rest) = .ok (.named (.ofSegments first segments), rest) := by
  simp only [readNamed, readName, readSegments_dotted segments h.dot]
  split
  · rename_i heq; cases heq
  · rename_i heq; cases heq; exact absurd rfl h.less
  · rename_i heq; cases heq; rfl

theorem readNamed_of_arguments {type : Reader TypeExpr} (first : String) (segments : List String)
    {arguments : List TypeExpr} {b : List Token}
    (h : Separated (Takes type (EndsItem .greater)) arguments b) (rest : List Token) :
    readNamed type first (dotted segments ++ .less :: (b ++ .greater :: rest)) =
      .ok (.generic (.ofSegments first segments) arguments, rest) := by
  have hsegments : readSegments (dotted segments ++ .less :: (b ++ .greater :: rest)) =
      .ok (segments, .less :: (b ++ .greater :: rest)) := readSegments_dotted segments (by simp)
  have hargs := readList_of_separated (by decide) h rest
  simp only [readNamed, readName, hsegments, hargs]

theorem readPrimary_name (type : Reader TypeExpr) (first : String) {ts : List Token}
    (h : ts.head? ≠ some .alias) : readPrimary type (.name first :: ts) = readNamed type first ts := by
  apply readPrimary.eq_4
  · rintro text rest hts _; exact h (by rw [hts]; rfl)
  · rintro rest hts _; exact h (by rw [hts]; rfl)

theorem IsName.ne_nil {name : TypeName} {a : List Token} (h : IsName name a) : a ≠ [] := by
  cases h <;> simp

/-- However a name is written, the reader goes on with what follows its first part. -/
theorem readPrimary_isName {name : TypeName} {a : List Token} (h : IsName name a) :
    ∃ first segments, name = .ofSegments first segments ∧ ∀ type rest, rest.head? ≠ some .alias →
      readPrimary type (a ++ rest) = readNamed type first (dotted segments ++ rest) := by
  cases h with
  | plain first segments =>
    refine ⟨first, segments, rfl, fun type rest hrest => readPrimary_name type first ?_⟩
    cases segments with
    | nil => exact hrest
    | cons text segments => simp [dotted]
  | global first segments => exact ⟨first, segments, rfl, fun type rest _ => rfl⟩

theorem readElement_unlabelled {type : Reader TypeExpr} {t : TypeExpr} {ts rest : List Token}
    (h : type ts = .ok (t, rest)) (hrest : EndsItem .closeParen rest) :
    readElement type ts = .ok ((none, t), rest) := by
  unfold readElement
  split
  · rename_i heq; rw [h] at heq; cases heq
  · rename_i heq
    rw [h] at heq
    cases heq
    rcases hrest with hrest | hrest <;> cases hrest
  · rename_i heq; rw [h] at heq; cases heq; rfl

theorem readElement_labelled {type : Reader TypeExpr} {t : TypeExpr} {label : String} {ts rest : List Token}
    (h : type ts = .ok (t, .name label :: rest)) : readElement type ts = .ok ((some label, t), rest) := by
  simp only [readElement, h]

theorem ofElements_eq_tuple {elements : List (Option String × TypeExpr)}
    (h : ∀ type, elements ≠ [(none, type)]) : ofElements elements = .tuple elements := by
  unfold ofElements
  split
  · rename_i type; exact absurd rfl (h type)
  · rfl

theorem readRank_replicate (base : TypeExpr) (commas rank : Nat) (ts : List Token) :
    readRank base rank (List.replicate commas .comma ++ .closeBracket :: ts) =
      readSuffixes (.array base (rank + commas)) ts := by
  induction commas generalizing rank with
  | zero => rfl
  | succ commas ih =>
    rw [List.replicate_succ, List.cons_append, readRank, ih, show rank + 1 + commas = rank + (commas + 1) by omega]

/-- What a derivation means for the readers: the tokens of a part are taken from the beginning of every
list in which the part ends with them. The depth bounds the nesting, and a nested type has fewer tokens
than the type around it. -/
def TakenBy (a : List Token) : Phrase → Prop
  | .type type => ∀ depth, a.length ≤ depth → Takes (readType depth) EndsType type a
  | .suffixes base type => Takes (readSuffixes base) EndsType type a ∧ ∀ rest, EndsType rest → EndsName (a ++ rest)
  | .primary type => a ≠ [] ∧ ∀ depth, a.length ≤ depth + 1 → Takes (readPrimary (readType depth)) EndsName type a
  | .element element => ∀ depth, a.length ≤ depth → Takes (readElement (readType depth)) (EndsItem .closeParen) element a
  | .elements elements => ∀ depth, a.length ≤ depth →
    Separated (Takes (readElement (readType depth)) (EndsItem .closeParen)) elements a
  | .types types => ∀ depth, a.length ≤ depth → Separated (Takes (readType depth) (EndsItem .greater)) types a

theorem reads_of_derives {phrase : Phrase} {a : List Token} (h : Derives phrase a) : TakenBy a phrase := by
  induction h with
  | @type base type a b _ _ ihbase ihsuffixes =>
    intro depth hdepth rest hrest
    obtain ⟨hne, hbase⟩ := ihbase
    obtain ⟨hsuffixes, hends⟩ := ihsuffixes
    have hpos := List.length_pos_iff.2 hne
    rw [List.length_append] at hdepth
    obtain ⟨depth, rfl⟩ : ∃ n, depth = n + 1 := ⟨depth - 1, by omega⟩
    rw [List.append_assoc]
    simp only [readType, hbase depth (by omega) (b ++ rest) (hends rest hrest)]
    exact hsuffixes rest hrest
  | @noSuffix type =>
    refine ⟨fun rest hrest => ?_, fun rest hrest => hrest.toEndsName⟩
    apply readSuffixes.eq_3
    · rintro rest' rfl; exact hrest.question rfl
    · rintro rest' rfl; exact hrest.openBracket rfl
  | @question base type a _ ih =>
    exact ⟨fun rest hrest => ih.1 rest hrest, fun rest _ => ⟨by simp, by simp, by simp⟩⟩
  | @brackets base type a commas _ ih =>
    refine ⟨fun rest hrest => ?_, fun rest _ => ⟨by simp, by simp, by simp⟩⟩
    rw [List.cons_append, List.append_assoc, List.cons_append, readSuffixes, readRank_replicate]
    exact ih.1 rest hrest
  | @parentheses type a _ ih =>
    refine ⟨by simp, fun depth hdepth rest _ => ?_⟩
    have hlength : a.length ≤ depth := by simp at hdepth; omega
    have hitem : Takes (readElement (readType depth)) (EndsItem .closeParen) (none, type) a :=
      fun rest hrest => readElement_unlabelled (ih depth hlength rest (hrest.endsType (.inl rfl))) hrest
    have hlist := readList_of_separated (by decide) (.last hitem) rest
    rw [List.cons_append, List.append_assoc, List.singleton_append, readPrimary, hlist]
    rfl
  | @tuple elements a _ hne ih =>
    refine ⟨by simp, fun depth hdepth rest _ => ?_⟩
    have hlist := readList_of_separated (by decide) (ih depth (by simp at hdepth; omega)) rest
    rw [List.cons_append, List.append_assoc, List.singleton_append, readPrimary, hlist]
    simp only [ofElements_eq_tuple hne]
  | named hname =>
    have hne := hname.ne_nil
    obtain ⟨first, segments, rfl, hread⟩ := readPrimary_isName hname
    refine ⟨hne, fun depth _ rest hrest => ?_⟩
    rw [hread _ _ hrest.noAlias, readNamed_of_endsName _ _ _ hrest]
  | @generic name arguments a b hname _ ih =>
    obtain ⟨first, segments, rfl, hread⟩ := readPrimary_isName hname
    refine ⟨by simp, fun depth hdepth rest _ => ?_⟩
    have hargs := readNamed_of_arguments first segments (ih depth (by simp at hdepth; omega)) rest
    rw [List.append_assoc, List.cons_append, List.append_assoc, List.singleton_append, hread _ _ (by simp),
      hargs]
  | unlabelled _ ih =>
    intro depth hdepth rest hrest
    exact readElement_unlabelled (ih depth hdepth rest (hrest.endsType (.inl rfl))) hrest
  | @labelled type a label _ ih =>
    intro depth hdepth rest _
    rw [List.length_append] at hdepth
    rw [List.append_assoc, List.singleton_append]
    apply readElement_labelled
    exact ih depth (by omega) _ (endsType_of_not_mem (by simp))
  | lastElement _ ih => exact fun depth hdepth => .last (ih depth hdepth)
  | moreElements _ _ ih ihs =>
    intro depth hdepth
    simp only [List.length_append, List.length_cons] at hdepth
    exact .more (ih depth (by omega)) (ihs depth (by omega))
  | lastType _ ih =>
    exact fun depth hdepth => .last fun rest hrest => ih depth hdepth rest (hrest.endsType (.inr rfl))
  | moreTypes _ _ ih ihs =>
    intro depth hdepth
    simp only [List.length_append, List.length_cons] at hdepth
    exact .more (fun rest hrest => ih depth (by omega) rest (hrest.endsType (.inr rfl))) (ihs depth (by omega))

/-! ## Whole lists of tokens, and texts -/

theorem readType_of_derives {type : TypeExpr} {a : List Token} (h : Derives (.type type) a) :
    readType (a.length + 1) a = .ok (type, []) := by
  have hend : EndsType [] := endsType_of_not_mem (by simp)
  have hread := reads_of_derives h (a.length + 1) (by omega) [] hend
  rwa [List.append_nil] at hread

theorem ofTokens_eq_ok_iff {ts : List Token} {type : TypeExpr} :
    ofTokens ts = .ok type ↔ Derives (.type type) ts := by
  constructor
  · intro h
    unfold ofTokens at h
    split at h
    · cases h
    · rename_i t hread
      cases h
      obtain ⟨a, rfl, ha⟩ := readType_sound _ _ _ _ hread
      rwa [List.append_nil]
    · cases h
  · intro h
    unfold ofTokens
    rw [readType_of_derives h]

/-- No list of tokens has two trees. -/
theorem Derives.unique {ts : List Token} {t t' : TypeExpr} (h : Derives (.type t) ts)
    (h' : Derives (.type t') ts) : t = t' := by
  have := (ofTokens_eq_ok_iff.2 h).symm.trans (ofTokens_eq_ok_iff.2 h')
  cases this
  rfl

theorem Derives.ne_nil {type : TypeExpr} {ts : List Token} (h : Derives (.type type) ts) : ts ≠ [] := by
  rintro rfl
  cases ofTokens_eq_ok_iff.2 h

theorem parse_eq_ok {text : String} {type : TypeExpr} :
    parse text = .ok type ↔ ∃ ts, tokens text = .ok ts ∧ Derives (.type type) ts := by
  constructor
  · intro h
    unfold parse at h
    split at h
    · cases h
    · cases h
    · rename_i ts _ hts
      split at h
      · cases h
      · rename_i type' htype
        cases h
        exact ⟨ts, hts, ofTokens_eq_ok_iff.1 htype⟩
  · rintro ⟨ts, hts, h⟩
    have hne := h.ne_nil
    simp only [parse, hts, ofTokens_eq_ok_iff.2 h]

/-- Reading in two steps. -/
theorem parse_of_tokens {text : String} {ts : List Token} {type : TypeExpr} (hts : tokens text = .ok ts)
    (h : ofTokens ts = .ok type) : parse text = .ok type :=
  parse_eq_ok.2 ⟨ts, hts, ofTokens_eq_ok_iff.1 h⟩

/-- The reader of type expressions and the grammar agree: a text is read as a tree just when it has
tokens that derive the tree, no list of tokens derives two trees, and a text whose tokens derive none is
refused. -/
theorem parse_agrees_with_grammar :
    (∀ text type, parse text = .ok type ↔ ∃ ts, tokens text = .ok ts ∧ Derives (.type type) ts) ∧
    (∀ ts type type', Derives (.type type) ts → Derives (.type type') ts → type = type') ∧
    ∀ text, (¬ ∃ ts type, tokens text = .ok ts ∧ Derives (.type type) ts) ↔
      ∃ cause, parse text = .error cause := by
  refine ⟨fun text type => parse_eq_ok, fun ts type type' => Derives.unique, fun text => ?_⟩
  constructor
  · intro hnone
    cases h : parse text with
    | error cause => exact ⟨cause, rfl⟩
    | ok type =>
      obtain ⟨ts, hts, hd⟩ := parse_eq_ok.1 h
      exact absurd ⟨ts, type, hts, hd⟩ hnone
  · rintro ⟨cause, hcause⟩ ⟨ts, type, hts, hd⟩
    rw [parse_eq_ok.2 ⟨ts, hts, hd⟩] at hcause
    cases hcause

end TypeBridge.TypeExpr
