import TypeBridge.Proofs.Source.Boundary
import TypeBridge.Proofs.Source.Depth
import TypeBridge.Proofs.Source.Lead

/-!
# Names of namespaces

The name of a namespace is written in words with dots between them, and read as it is written: it is cut into its words
and dots, which are tokens and trees of their own, and the rule for names takes them all.

Results:
* `cuts_word`, `cuts_space`, `cuts_mark`: the pieces before a namespace.
* `SpaceName.cuts_text`, `SpaceName.take_qualifiedName`: how a name is cut and read.
-/
namespace TypeBridge.Source

namespace Lexeme

/-! ## Pieces -/

theorem toNat_of_isWordStart {c : Char} (h : isWordStart c = true) :
    65 ≤ c.toNat ∧ (c.toNat ≤ 122 ∨ 0x80 ≤ c.toNat ∧ isSpace c = false) := by
  rw [isWordStart, Bool.or_eq_true, Bool.or_eq_true] at h
  rcases h with (h | h) | h
  · have hrange : (65 ≤ c.toNat ∧ c.toNat ≤ 90) ∨ (97 ≤ c.toNat ∧ c.toNat ≤ 122) := by
      rcases (Bool.or_eq_true_iff.1 h : c.isUpper = true ∨ c.isLower = true) with hupper | hlower
      · exact .inl (of_decide_eq_true hupper)
      · obtain ⟨hlow, hhigh⟩ := Bool.and_eq_true_iff.1 hlower
        exact .inr ⟨of_decide_eq_true hlow, of_decide_eq_true hhigh⟩
    omega
  · rw [eq_of_beq h]
    decide
  · simp only [Bool.and_eq_true, decide_eq_true_eq, Bool.not_eq_true'] at h
    exact ⟨by omega, .inr h⟩

theorem not_isSpace_of_isWordStart {c : Char} (h : isWordStart c = true) : isSpace c = false := by
  have hblank : Text.isBlank c = false := not_isBlank_of_isWordPart (by simp [isWordPart, h])
  obtain ⟨-, hhigh | ⟨-, hspace⟩⟩ := toNat_of_isWordStart h
  · simp only [isSpace, hblank, Bool.false_and, Bool.false_or, beq_eq_false_iff_ne]
    omega
  · exact hspace

theorem not_isDigit_of_isWordStart {c : Char} (h : isWordStart c = true) : c.isDigit = false := by
  obtain ⟨hlow, -⟩ := toNat_of_isWordStart h
  simp only [Char.isDigit, Bool.and_eq_false_iff, decide_eq_false_iff_not, UInt32.le_iff_toNat_le, ge_iff_le]
  change ¬ 48 ≤ c.toNat ∨ ¬ c.toNat ≤ 57
  omega

theorem opening?_eq_none {c : Char} (hc : c ∉ ['\'', '@', '"', '$']) (r : List Char) :
    Literal.opening? (c :: r) = none := by
  simp only [List.mem_cons, List.not_mem_nil, or_false, not_or] at hc
  simp [Literal.opening?, Literal.run, hc]

theorem opening?_at_eq_none {c : Char} (hc : c ∉ ['"', '$']) (r : List Char) :
    Literal.opening? ('@' :: c :: r) = none := by
  simp only [List.mem_cons, List.not_mem_nil, or_false, not_or] at hc
  simp [Literal.opening?, Literal.run, hc]

/-- What it means that a text does not go on with a word. -/
def EndsWord (rest : List Char) : Prop := ∀ c, rest.head? = some c → isWordPart c = false

theorem endsWord_cons {c : Char} (h : isWordPart c = false) (rest : List Char) : EndsWord (c :: rest) := by
  intro d hd
  exact Option.some.inj hd ▸ h

theorem countWhile_append_of_endsWord {r rest : List Char} (hr : ∀ d ∈ r, isWordPart d = true) (hrest : EndsWord rest) :
    countWhile isWordPart (r ++ rest) = r.length := by
  have hnil : rest.takeWhile isWordPart = [] := by
    cases rest with
    | nil => rfl
    | cons c rest => simp [hrest c rfl]
  rw [countWhile, List.takeWhile_append_of_pos hr, hnil, List.append_nil]

theorem cuts_word {word rest : List Char} (hword : IsWordText word) (hrest : EndsWord rest) :
    Cuts word [⟨.token .word, word⟩] rest := by
  obtain ⟨mark, c, r, rfl, hmark, hc, hr⟩ := hword
  have hcount := countWhile_append_of_endsWord hr hrest
  have hspace := not_isSpace_of_isWordStart hc
  have hne {d : Char} (hd : isWordStart d = false) : c ≠ d := ne_of_isWordStart hc hd
  refine cuts_of_piece? (by simp) ?_
  rcases hmark with rfl | rfl
  · have hopening : Literal.opening? (c :: (r ++ rest)) = none := by
      refine opening?_eq_none ?_ _
      simp [hne (d := '\'') (by decide), hne (d := '@') (by decide), hne (d := '"') (by decide),
        hne (d := '$') (by decide)]
    have hlength : wordLength? (c :: (r ++ rest)) = some (c :: r).length := by
      have hat := hne (d := '@') (by decide)
      simp [wordLength?, hat, hc, hcount, Nat.add_comm]
    have hhash : (c == '#') = false := beq_eq_false_iff_ne.2 (hne (by decide))
    have hslash : (c == '/') = false := beq_eq_false_iff_ne.2 (hne (by decide))
    simp only [List.nil_append, List.cons_append, piece?, hspace, hhash, hslash, hopening, hlength, Bool.false_and,
      Option.isSome_none, Bool.false_eq_true, if_false]
  · have hopening : Literal.opening? ('@' :: c :: (r ++ rest)) = none := by
      refine opening?_at_eq_none ?_ _
      simp [hne (d := '"') (by decide), hne (d := '$') (by decide)]
    have hlength : wordLength? ('@' :: c :: (r ++ rest)) = some ('@' :: c :: r).length := by
      simp only [wordLength?, hc, if_true, hcount, List.length_cons]
      congr 1
      omega
    have hat : isSpace '@' = false := by decide
    simp only [List.cons_append, List.nil_append, piece?, hat, hopening, hlength, Option.isSome_none,
      Bool.false_eq_true, if_false]
    rfl

theorem cuts_space {c : Char} (hc : isSpace c = false) (rest : List Char) :
    Cuts [' '] [⟨.trivia .blank, [' ']⟩] (c :: rest) := by
  refine cuts_of_piece? (by simp) ?_
  have hspace : isSpace ' ' = true := by decide
  have hcount : countWhile isSpace (c :: rest) = 0 := by simp [countWhile, hc]
  simp [piece?, hspace, hcount]

/-- A mark that no other one begins with. -/
theorem cuts_mark {mark : Char} (hmark : mark ∈ [';', '\x7b', '\x7d']) (rest : List Char) :
    Cuts [mark] [⟨.token .mark, [mark]⟩] rest := by
  refine cuts_of_piece? (by simp) ?_
  simp only [List.mem_cons, List.not_mem_nil, or_false] at hmark
  rcases hmark with rfl | rfl | rfl <;> rfl

/-- A dot that is no part of a number or of two dots. -/
theorem cuts_dot {c : Char} (hc : c ≠ '.') (hdigit : c.isDigit = false) (rest : List Char) :
    Cuts ['.'] [⟨.token .mark, ['.']⟩] (c :: rest) := by
  refine cuts_of_piece? (by simp) ?_
  have hnumber : numberLength? ('.' :: c :: rest) = none := by
    have hdot : Char.isDigit '.' = false := by decide
    simp [numberLength?, fractionLength, hdot, hdigit]
  have hfind : longMarks.find? (fun mark => mark.toList.isPrefixOf ('.' :: c :: rest)) = none := by
    rw [List.find?_eq_none]
    intro mark hmark
    have hmarks : longMarks.all (fun mark => ['.', '.'].isPrefixOf mark.toList ||
        ['.'].isPrefixOf mark.toList == false && mark.toList != []) = true := by rfl
    have hall := List.all_eq_true.1 hmarks mark hmark
    simp only [Bool.or_eq_true, Bool.and_eq_true, beq_iff_eq, bne_iff_ne] at hall
    rcases hall with hdots | ⟨hdot, hne⟩
    · obtain ⟨r, hr⟩ := List.isPrefixOf_iff_prefix.1 hdots
      simp [← hr, Ne.symm hc]
    · obtain ⟨d, r, hr⟩ := List.exists_cons_of_ne_nil hne
      rw [hr] at hdot ⊢
      simp only [List.isPrefixOf_cons_cons, List.isPrefixOf_nil_left, Bool.and_true, beq_eq_false_iff_ne] at hdot
      simp [Ne.symm hdot]
  have hmark : markLength? ('.' :: c :: rest) = some 1 := by
    unfold markLength?
    rw [hfind]
    rfl
  have hopening : Literal.opening? ('.' :: c :: rest) = none := opening?_eq_none (by decide) _
  have hspace : isSpace '.' = false := by decide
  have hword : wordLength? ('.' :: c :: rest) = none := by
    have hstart : isWordStart '.' = false := by decide
    simp [wordLength?, hstart]
  simp [piece?, hspace, hopening, hword, hnumber, hmark]

theorem exists_cons_of_isWordText {word : List Char} (h : IsWordText word) :
    ∃ c r, word = c :: r ∧ isSpace c = false ∧ c ≠ '.' ∧ c.isDigit = false := by
  obtain ⟨mark, c, r, rfl, hmark, hc, -⟩ := h
  rcases hmark with rfl | rfl
  · exact ⟨c, r, rfl, not_isSpace_of_isWordStart hc, ne_of_isWordStart hc (by decide), not_isDigit_of_isWordStart hc⟩
  · exact ⟨'@', c :: r, rfl, by decide, by decide, by decide⟩

end Lexeme

/-! ## Trees -/

theorem Tree.tokensAll_map_leaf (tokens : List Token) : tokensAll (tokens.map .leaf) = tokens := by
  induction tokens with
  | nil => rfl
  | cons token tokens ih => simp [tokensAll, Tree.tokens, ih]

/-! ## Rules -/

namespace Rule

variable {α : Type} {parts : α → Reading} {first second rule : Rule α} {ts rest : List Tree}

theorem run_seq_of_eq_some (h : run parts first ts = some rest) :
    run parts (.seq first second) ts = run parts second rest := by
  rw [run, h, Option.bind_some]

theorem run_seq_of_eq_none (h : run parts first ts = none) : run parts (.seq first second) ts = none := by
  rw [run, h, Option.bind_none]

theorem run_choice_of_eq_none (h : run parts first ts = none) :
    run parts (.choice first second) ts = run parts second ts := by
  rw [run, h, Option.orElse_none]

theorem run_opt_of_eq_none (h : run parts rule ts = none) : run parts (opt rule) ts = some ts := by
  rw [opt, run_choice_of_eq_none h, run]

/-- What it means that some trees do not go on with a text. -/
def Without (text : String) (ts : List Tree) : Prop := ∀ token more, ts = .leaf token :: more → token.text ≠ text

theorem without_leaf {text : String} {token : Token} (h : token.text ≠ text) (more : List Tree) :
    Without text (.leaf token :: more) := by
  intro other others heq
  obtain ⟨heq, -⟩ := List.cons.inj heq
  exact Tree.leaf.inj heq ▸ h

theorem run_text_of_without {text : String} (h : Without text ts) : run parts (.text text) ts = none := by
  unfold run
  split
  · exact if_neg (h _ _ rfl)
  · rfl

theorem run_text_leaf (parts : α → Reading) (token : Token) (rest : List Tree) :
    run parts (.text token.text) (.leaf token :: rest) = some rest := by
  simp [run]

theorem run_name_leaf (parts : α → Reading) {token : Token} (h : token.isName = true) (rest : List Tree) :
    run parts .name (.leaf token :: rest) = some rest := by
  simp [run, h]

end Rule

/-! ## Names -/

/-- Whether a text is a word that may be a name. -/
def IsFreeWord (word : String) : Prop := Lexeme.IsWordText word.toList ∧ word ∉ reservedWords

theorem isFreeWord_of_toList {word : String} {c : Char} {r : List Char} (hword : word.toList = c :: r)
    (hc : Lexeme.isWordStart c = true) (hr : r.all Lexeme.isWordPart = true)
    (hfree : reservedWords.contains word = false) : IsFreeWord word :=
  ⟨⟨[], c, r, hword, .inl rfl, hc, List.all_eq_true.1 hr⟩, by simpa using hfree⟩

/-- The name of a namespace: words with dots between them. -/
structure SpaceName where
  first : String
  others : List String
  free : ∀ word ∈ first :: others, IsFreeWord word

namespace SpaceName

variable (name : SpaceName)

/-- How a name is written. -/
def text : String := name.first ++ String.join (name.others.map ("." ++ ·))

/-- The name of a namespace inside of another one. -/
def dot (inner : SpaceName) : SpaceName where
  first := name.first
  others := name.others ++ inner.first :: inner.others
  free := by
    have hname := name.free
    have hinner := inner.free
    simp only [List.mem_cons, List.mem_append] at hname hinner ⊢
    intro word hword
    rcases hword with rfl | hword | hword
    · exact hname _ (.inl rfl)
    · exact hname word (.inr hword)
    · exact hinner word hword

theorem text_dot (inner : SpaceName) : (name.dot inner).text = name.text ++ "." ++ inner.text := by
  apply String.toList_inj.1
  simp [text, dot, String.toList_join]

theorem toList_text : name.text.toList = name.first.toList ++ name.others.flatMap ('.' :: ·.toList) := by
  simp [text, String.toList_join, List.flatMap_map]

/-! ### Pieces -/

/-- The pieces of words with a dot before each of them. -/
def dottedLexemes (words : List String) : List Lexeme :=
  words.flatMap fun word => [⟨.token .mark, ['.']⟩, ⟨.token .word, word.toList⟩]

theorem endsWord_dotted (words : List String) {rest : List Char} (hrest : Lexeme.EndsWord rest) :
    Lexeme.EndsWord (words.flatMap ('.' :: ·.toList) ++ rest) := by
  cases words with
  | nil => exact hrest
  | cons word words => exact Lexeme.endsWord_cons (by decide) _

theorem cuts_dotted {words : List String} (hwords : ∀ word ∈ words, IsFreeWord word) {rest : List Char}
    (hrest : Lexeme.EndsWord rest) :
    Lexeme.Cuts (words.flatMap ('.' :: ·.toList)) (dottedLexemes words) rest := by
  induction words with
  | nil => simp [Lexeme.Cuts, dottedLexemes]
  | cons word words ih =>
    obtain ⟨hword, hwords⟩ := List.forall_mem_cons.1 hwords
    have hcut := (Lexeme.cuts_word hword.1 (endsWord_dotted words hrest)).append (ih hwords)
    obtain ⟨c, r, hchars, -, hc, hdigit⟩ := Lexeme.exists_cons_of_isWordText hword.1
    have hdot := Lexeme.cuts_dot hc hdigit (r ++ (words.flatMap ('.' :: ·.toList) ++ rest))
    rw [← List.cons_append, ← hchars, ← List.append_assoc] at hdot
    exact hdot.append hcut

theorem cuts_text {rest : List Char} (hrest : Lexeme.EndsWord rest) :
    Lexeme.Cuts name.text.toList (⟨.token .word, name.first.toList⟩ :: dottedLexemes name.others) rest := by
  obtain ⟨hfirst, hothers⟩ := List.forall_mem_cons.1 name.free
  rw [toList_text]
  exact (Lexeme.cuts_word hfirst.1 (endsWord_dotted name.others hrest)).append (cuts_dotted hothers hrest)

/-! ### Tokens -/

/-- The tokens of words with a dot before each of them. -/
def dottedTokens (words : List String) : List Token :=
  words.flatMap fun word => [⟨[], .mark, "."⟩, ⟨[], .word, word⟩]

/-- The tokens of a name, and what stands before it. -/
def tokens (lead : List Trivia) : List Token := ⟨lead, .word, name.first⟩ :: dottedTokens name.others

theorem ofLexemes_dotted (words : List String) (more : List Lexeme) :
    Token.ofLexemes [] false (dottedLexemes words ++ more) = dottedTokens words ++ Token.ofLexemes [] false more := by
  induction words with
  | nil => rfl
  | cons word words ih =>
    have hword : String.ofList word.toList = word := String.ofList_toList
    simp only [dottedLexemes, dottedTokens, List.flatMap_cons, List.cons_append, List.nil_append, Token.ofLexemes,
      hword] at ih ⊢
    rw [ih]
    rfl

theorem role_of_mem_tokens {lead : List Trivia} {token : Token} (h : token ∈ name.tokens lead) :
    Tree.role token = .stands := by
  rw [tokens, List.mem_cons, dottedTokens, List.mem_flatMap] at h
  rcases h with rfl | ⟨word, -, h⟩
  · rfl
  · rw [List.mem_pair] at h
    rcases h with rfl | rfl
    · rfl
    · rfl

/-! ### Reading -/

variable {parts : Part → Rule.Reading} {rest : List Tree}

theorem run_simpleName {token : Token} (hname : token.isName = true) (hrest : Rule.Without "<" rest) :
    Rule.run parts Rules.simpleName (.leaf token :: rest) = some rest := by
  have hangle : Rule.run parts (.text "<") rest = none := Rule.run_text_of_without hrest
  have happlied : Rule.run parts Rules.arguments1 rest = none := Rule.run_seq_of_eq_none hangle
  have harguments : Rule.run parts Rules.typeArguments rest = none :=
    (Rule.run_choice_of_eq_none happlied).trans (Rule.run_seq_of_eq_none hangle)
  exact (Rule.run_seq_of_eq_some (Rule.run_name_leaf parts hname rest)).trans (Rule.run_opt_of_eq_none harguments)

theorem isName_of_isFreeWord {word : String} (h : IsFreeWord word) (lead : List Trivia) :
    Token.isName ⟨lead, .word, word⟩ = true := by
  simp [Token.isName, h.2]

/-- What it means that a name does not go on with some trees. -/
structure EndsName (rest : List Tree) : Prop where
  colons : Rule.Without "::" rest
  angle : Rule.Without "<" rest
  dot : Rule.Without "." rest

/-- The trees of words with a dot before each of them, and those after them. -/
def dottedTrees (words : List String) (rest : List Tree) : List Tree := (dottedTokens words).map .leaf ++ rest

theorem dottedTrees_cons (word : String) (words : List String) (rest : List Tree) :
    dottedTrees (word :: words) rest =
      .leaf ⟨[], .mark, "."⟩ :: .leaf ⟨[], .word, word⟩ :: dottedTrees words rest := rfl

theorem without_dottedTrees {text : String} (htext : "." ≠ text) (hrest : Rule.Without text rest)
    (words : List String) : Rule.Without text (dottedTrees words rest) := by
  cases words with
  | nil => exact hrest
  | cons word words => exact Rule.without_leaf htext _

theorem length_le_dottedTrees (words : List String) (rest : List Tree) :
    words.length ≤ (dottedTrees words rest).length := by
  induction words with
  | nil => exact Nat.zero_le _
  | cons word words ih =>
    rw [dottedTrees_cons, List.length_cons, List.length_cons, List.length_cons]
    omega

theorem repeated_dottedTrees {words : List String} (hwords : ∀ word ∈ words, IsFreeWord word)
    (hrest : EndsName rest) {n : Nat} (hn : words.length ≤ n) :
    Rule.Reading.repeated (Rule.run parts (Rule.all [".", Rules.simpleName])) n (dottedTrees words rest) = rest := by
  induction words generalizing n with
  | nil =>
    have hnone : Rule.run parts (Rule.all [".", Rules.simpleName]) rest = none :=
      Rule.run_seq_of_eq_none (Rule.run_text_of_without hrest.dot)
    cases n with
    | zero => rfl
    | succ n =>
      change Rule.Reading.repeated _ (n + 1) rest = rest
      rw [Rule.Reading.repeated, hnone]
  | cons word words ih =>
    obtain ⟨hword, hwords⟩ := List.forall_mem_cons.1 hwords
    obtain ⟨n, rfl⟩ : ∃ m, n = m + 1 := ⟨n - 1, by simp only [List.length_cons] at hn; omega⟩
    have hstep : Rule.run parts (Rule.all [".", Rules.simpleName]) (dottedTrees (word :: words) rest) =
        some (dottedTrees words rest) := by
      rw [dottedTrees_cons]
      exact (Rule.run_seq_of_eq_some (Rule.run_text_leaf parts ⟨[], .mark, "."⟩ _)).trans
        (run_simpleName (isName_of_isFreeWord hword []) (without_dottedTrees (by decide) hrest.angle words))
    have hlength : (dottedTrees words rest).length < (dottedTrees (word :: words) rest).length := by
      rw [dottedTrees_cons, List.length_cons, List.length_cons]
      omega
    rw [Rule.Reading.repeated, hstep]
    dsimp only
    rw [if_pos hlength]
    exact ih hwords (by simpa using hn)

/-- The trees of a name. -/
def trees (lead : List Trivia) : List Tree := (name.tokens lead).map .leaf

/-- The rule for names takes all words of a name. -/
theorem take_qualifiedName (lead : List Trivia) (hrest : EndsName rest) :
    take Rules.qualifiedName (name.trees lead ++ rest) = some (name.trees lead, rest) := by
  obtain ⟨hfirst, hothers⟩ := List.forall_mem_cons.1 name.free
  have hword := isName_of_isFreeWord hfirst lead
  have hrun : language.rest? Rules.qualifiedName (name.trees lead ++ rest) = some rest := by
    rw [Grammar.rest?]
    generalize language.read _ = parts
    let words := dottedTrees name.others rest
    change Rule.run parts Rules.qualifiedName (.leaf ⟨lead, .word, name.first⟩ :: words) = some rest
    have hcolons : Rule.run parts (Rule.all [.name, "::"]) (.leaf ⟨lead, .word, name.first⟩ :: words) = none :=
      (Rule.run_seq_of_eq_some (Rule.run_name_leaf parts hword words)).trans
        (Rule.run_text_of_without (without_dottedTrees (by decide) hrest.colons name.others))
    have hsimple : Rule.run parts Rules.simpleName (.leaf ⟨lead, .word, name.first⟩ :: words) = some words :=
      run_simpleName hword (without_dottedTrees (by decide) hrest.angle name.others)
    have hmany : Rule.run parts (.many (Rule.all [".", Rules.simpleName])) words = some rest :=
      congrArg some (repeated_dottedTrees hothers hrest (length_le_dottedTrees name.others rest))
    exact (Rule.run_seq_of_eq_some (Rule.run_opt_of_eq_none hcolons)).trans
      ((Rule.run_seq_of_eq_some hsimple).trans hmany)
  simp [take, Grammar.split?, hrun]

/-- The trees of a name are written as the name. -/
theorem textOf_trees (lead : List Trivia) : Tree.textOf (name.trees lead) = name.text := by
  have hwords (words : List String) :
      String.join ((dottedTokens words).map Token.written) = String.join (words.map ("." ++ ·)) := by
    apply String.toList_inj.1
    simp [dottedTokens, String.toList_join, List.flatMap_map, List.flatMap_assoc, Token.written, Token.before]
  have htokens : Tree.tokensAll (name.trees lead) = name.tokens lead := Tree.tokensAll_map_leaf _
  rw [Tree.textOf, htokens, text, ← hwords]
  rfl

theorem trim_text : Text.trim name.text.toList = name.text.toList := by
  obtain ⟨hfirst, hothers⟩ := List.forall_mem_cons.1 name.free
  refine Text.trim_of_not_isBlank fun c hc => ?_
  rw [toList_text, List.mem_append, List.mem_flatMap] at hc
  rcases hc with hc | ⟨word, hword, hc⟩
  · exact Lexeme.not_isBlank_of_isWordText hfirst.1 c hc
  · rcases List.mem_cons.1 hc with rfl | hc
    · decide
    · exact Lexeme.not_isBlank_of_isWordText (hothers word hword).1 c hc

end SpaceName

end TypeBridge.Source
