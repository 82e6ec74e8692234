import TypeBridge.Proofs.Source.Ending
import TypeBridge.Proofs.Source.Length

/-!
# Before a closing brace

A text is cut in the same way when a closing brace follows it: no piece goes on with the brace, but a comment that goes
to the end of its line.

Results:
* `scan_append`, `directiveAfterHash?_append`: literals and directives before a closing brace.
* `piece?_append`: one piece.
* `cuts_of_ofSource?`: all pieces.
-/
namespace TypeBridge.Source

namespace Lexeme

variable (t : List Char)

/-! ## Runs of characters -/

theorem takeWhile_append_brace {p : Char → Bool} (hp : p '\x7d' = false) (s : List Char) :
    (s ++ '\x7d' :: t).takeWhile p = s.takeWhile p := by
  induction s with
  | nil => simp [hp]
  | cons c r ih =>
    by_cases h : p c = true
    · simp [h, ih]
    · simp [h]

theorem countWhile_append_brace {p : Char → Bool} (hp : p '\x7d' = false) (s : List Char) :
    countWhile p (s ++ '\x7d' :: t) = countWhile p s := by
  rw [countWhile, countWhile, takeWhile_append_brace t hp]

theorem countWhile_brace {p : Char → Bool} (hp : p '\x7d' = false) : countWhile p ('\x7d' :: t) = 0 := by
  simp [countWhile, hp]

/-- A run that ends before a text does ends there whatever follows the text. -/
theorem countWhile_append_of_lt {p : Char → Bool} {s : List Char} (h : countWhile p s < s.length) (more : List Char) :
    countWhile p (s ++ more) = countWhile p s := by
  induction s with
  | nil => simp at h
  | cons c r ih =>
    by_cases hc : p c = true
    · simp only [countWhile, List.cons_append, List.takeWhile_cons_of_pos hc, List.length_cons] at h ih ⊢
      rw [ih (by omega)]
    · simp [countWhile, hc]

/-! ## Comments and words -/

theorem blockEnd?_append {s : List Char} {n : Nat} (h : blockEnd? s = some n) (more : List Char) :
    blockEnd? (s ++ more) = some n := by
  fun_induction blockEnd? s generalizing n with
  | case1 r => exact h
  | case2 c r hnot ih =>
    obtain ⟨m, hm, rfl⟩ := Option.map_eq_some_iff.1 h
    cases r with
    | nil => cases hm
    | cons d r =>
      have hrest := ih hm
      rw [List.cons_append, blockEnd?]
      · rw [hrest, Option.map_some]
      · rintro u rfl heq
        exact hnot r rfl (by rw [(List.cons.inj heq).1])
  | case3 => cases h

theorem wordLength?_append {s : List Char} (hne : s ≠ []) : wordLength? (s ++ '\x7d' :: t) = wordLength? s := by
  have hcount := countWhile_append_brace t (p := isWordPart) (by decide)
  match s with
  | [c] =>
    by_cases hat : c = '@'
    · subst hat
      simp [wordLength?, isWordStart, isSpace, Text.isBlank]
    · have hnil := hcount []
      rw [List.nil_append] at hnil
      simp [wordLength?, hat, hnil]
  | c :: d :: r =>
    by_cases hat : c = '@'
    · subst hat
      simp [wordLength?, hcount]
    · have hrest := hcount (d :: r)
      rw [List.cons_append] at hrest
      simp [wordLength?, hat, hrest]

/-! ## Numbers -/

theorem integerSuffix_append (s : List Char) : integerSuffix (s ++ '\x7d' :: t) = integerSuffix s :=
  countWhile_append_brace t (by decide) s

theorem realSuffix_append (s : List Char) : realSuffix (s ++ '\x7d' :: t) = realSuffix s := by
  cases s with
  | nil => rfl
  | cons c r => rfl

theorem fractionLength_append (s : List Char) : fractionLength (s ++ '\x7d' :: t) = fractionLength s := by
  have hcount := countWhile_append_brace t (p := isDigitPart) (by decide)
  match s with
  | [] => rfl
  | [c] =>
    by_cases hdot : c = '.'
    · subst hdot
      rfl
    · simp [fractionLength, hdot]
  | c :: d :: r =>
    by_cases hdot : c = '.'
    · subst hdot
      simp [fractionLength, hcount]
    · simp [fractionLength, hdot]

theorem exponentLength_append (s : List Char) : exponentLength (s ++ '\x7d' :: t) = exponentLength s := by
  have hcount := countWhile_append_brace t (p := isDigitPart) (by decide)
  have hbrace : Char.isDigit '\x7d' = false := by decide
  match s with
  | [] =>
    match t with
    | [] => rfl
    | [d] => simp [exponentLength]
    | d :: e :: r => simp [exponentLength]
  | [c] =>
    match t with
    | [] => simp [exponentLength, hbrace]
    | d :: r => simp [exponentLength, hbrace]
  | [c, d] =>
    have hnil := countWhile_brace t (p := isDigitPart) (by decide)
    by_cases hd : d.isDigit = true
    · simp [exponentLength, hbrace, hd, hnil]
    · simp [exponentLength, hbrace, hd]
  | c :: d :: e :: r =>
    have hrest := hcount (e :: r)
    rw [List.cons_append] at hrest
    simp [exponentLength, hcount, hrest]

theorem drop_append_brace (s : List Char) {n : Nat} (h : n ≤ s.length) :
    (s ++ '\x7d' :: t).drop n = s.drop n ++ '\x7d' :: t :=
  List.drop_append_of_le_length h

theorem numberTail_append (s : List Char) : numberTail (s ++ '\x7d' :: t) = numberTail s := by
  simp only [numberTail, exponentLength_append, drop_append_brace t s (exponentLength_le s), realSuffix_append,
    integerSuffix_append]

theorem head?_append_brace {s : List Char} (hne : s ≠ []) : (s ++ '\x7d' :: t).head? = s.head? := by
  cases s with
  | nil => exact absurd rfl hne
  | cons c r => rfl

/-- A text begins with what it begins with before a brace, if there is no brace in that. -/
theorem exists_of_append_eq {s first r : List Char} (hfirst : '\x7d' ∉ first) (h : s ++ '\x7d' :: t = first ++ r) :
    ∃ u, s = first ++ u := by
  rcases List.append_eq_append_iff.1 h with ⟨u, hu, hbrace⟩ | ⟨u, hu, -⟩
  · cases u with
    | nil => exact ⟨[], by rw [hu]; simp⟩
    | cons c u =>
      obtain ⟨rfl, -⟩ := List.cons.inj hbrace
      exact absurd (by rw [hu]; simp) hfirst
  · exact ⟨u, hu⟩

/-- What a text does not begin with it does not begin with before a brace. -/
theorem not_append_eq {s : List Char} (first : List Char) (hfirst : first.contains '\x7d' = false)
    (h : ∀ r, s = first ++ r → False) (r : List Char) : s ++ '\x7d' :: t = first ++ r → False := by
  intro heq
  obtain ⟨u, hu⟩ := exists_of_append_eq t (by simpa using hfirst) heq
  exact h u hu

theorem numberLength?_append {s : List Char} (hne : s ≠ []) : numberLength? (s ++ '\x7d' :: t) = numberLength? s := by
  have hbased {p : Char → Bool} (hp : p '\x7d' = false) (r : List Char) :
      2 + countWhile p (r ++ '\x7d' :: t) + integerSuffix ((r ++ '\x7d' :: t).drop (countWhile p (r ++ '\x7d' :: t))) =
        2 + countWhile p r + integerSuffix (r.drop (countWhile p r)) := by
    rw [countWhile_append_brace t hp, drop_append_brace t r (countWhile_le p r), integerSuffix_append]
  have hwhole : (if (s.head?.map Char.isDigit).getD false then countWhile isDigitPart s else 0) ≤ s.length := by
    have hle := countWhile_le isDigitPart s
    split <;> omega
  conv_rhs => unfold numberLength?
  split
  · exact congrArg some (hbased (by decide) _)
  · exact congrArg some (hbased (by decide) _)
  · exact congrArg some (hbased (by decide) _)
  · exact congrArg some (hbased (by decide) _)
  · rename_i hx hX hb hB
    rw [numberLength?]
    · rw [head?_append_brace t hne, countWhile_append_brace t (by decide)]
      generalize (if (s.head?.map Char.isDigit).getD false then countWhile isDigitPart s else 0) = whole at hwhole ⊢
      have hfraction := fractionLength_le (s.drop whole)
      rw [List.length_drop] at hfraction
      dsimp only
      rw [drop_append_brace t s hwhole, fractionLength_append, drop_append_brace t s (by omega), numberTail_append]
    · exact not_append_eq t ['0', 'x'] rfl hx
    · exact not_append_eq t ['0', 'X'] rfl hX
    · exact not_append_eq t ['0', 'b'] rfl hb
    · exact not_append_eq t ['0', 'B'] rfl hB

/-! ## Marks -/

theorem isPrefixOf_append_brace {mark : List Char} (hmark : '\x7d' ∉ mark) (s : List Char) :
    mark.isPrefixOf (s ++ '\x7d' :: t) = mark.isPrefixOf s := by
  induction s generalizing mark with
  | nil =>
    cases mark with
    | nil => rfl
    | cons c r =>
      have hne : c ≠ '\x7d' := fun heq => hmark (heq ▸ List.mem_cons_self)
      rw [List.nil_append, List.isPrefixOf_cons_cons, beq_eq_false_iff_ne.2 hne]
      rfl
  | cons d s ih =>
    cases mark with
    | nil => rfl
    | cons c r =>
      rw [List.cons_append, List.isPrefixOf_cons_cons, List.isPrefixOf_cons_cons,
        ih fun hmem => hmark (List.mem_cons_of_mem c hmem)]

theorem markLength?_append {s : List Char} (hne : s ≠ []) : markLength? (s ++ '\x7d' :: t) = markLength? s := by
  have hfind : longMarks.find? (fun mark => mark.toList.isPrefixOf (s ++ '\x7d' :: t)) =
      longMarks.find? fun mark => mark.toList.isPrefixOf s := by
    rw [← List.head?_filter, ← List.head?_filter]
    refine congrArg List.head? (List.filter_congr fun mark hmark => ?_)
    have hmarks : longMarks.all (fun mark => !mark.toList.contains '\x7d') = true := by rfl
    have hall := List.all_eq_true.1 hmarks mark hmark
    exact isPrefixOf_append_brace t (by simpa using hall) s
  unfold markLength?
  rw [hfind]
  split
  · rfl
  · clear hfind
    match s with
    | [] => exact absurd rfl hne
    | [c] =>
      by_cases hc : c = '?'
      · subst hc
        simp
      · simp [hc]
    | c :: d :: r =>
      by_cases hc : c = '?'
      · subst hc
        by_cases hd : d = '.'
        · subst hd
          cases r with
          | nil => simp
          | cons e r => rfl
        · simp [hd]
      · simp [hc]

/-! ## Comments and directives -/

/-- A comment goes on with a brace only when it goes to the end of its line and is not there yet. -/
theorem commentLength?_append {s : List Char} {n : Nat} (h : commentLength? s = some n)
    (hline : ∀ r, s = '/' :: '/' :: r → n < s.length) : commentLength? (s ++ '\x7d' :: t) = some n := by
  unfold commentLength? at h
  split at h
  · rename_i r
    obtain rfl := Option.some.inj h
    have hlt := hline r rfl
    simp only [List.length_cons] at hlt
    have hcount := countWhile_append_of_lt (p := fun c => !endsLine c) (s := r) (by omega) ('\x7d' :: t)
    exact congrArg (fun count => some (2 + count)) hcount
  · rename_i r
    obtain ⟨m, hm, rfl⟩ := Option.map_eq_some_iff.1 h
    exact congrArg (Option.map (· + 2)) (blockEnd?_append hm ('\x7d' :: t))
  · cases h

theorem lineEnd?_append {s : List Char} {count : Nat} (h : lineEnd? s = some count) (more : List Char) :
    lineEnd? (s ++ more) = some count := by
  unfold lineEnd? at h
  dsimp only at h
  split at h
  · rename_i hlt
    obtain rfl := Option.some.inj h
    have hcount := countWhile_append_of_lt hlt more
    unfold lineEnd?
    dsimp only
    rw [hcount, if_pos]
    rw [List.length_append]
    omega
  · cases h

theorem blankLines_append (s : List Char) : blankLines (s ++ '\x7d' :: t) = blankLines s := by
  unfold blankLines
  dsimp only
  rw [takeWhile_append_brace t (by decide)]

theorem directiveAfterHash?_append {s : List Char} {kind : Kind} {n : Nat}
    (h : directiveAfterHash? s = some (kind, n)) : directiveAfterHash? (s ++ '\x7d' :: t) = some (kind, n) := by
  have hlength := length_name_le s
  have hindentation := countWhile_le (fun c => c == ' ' || c == '\t') s
  unfold directiveAfterHash? at h ⊢
  dsimp only at h ⊢
  rw [countWhile_append_brace t (by decide), drop_append_brace t s hindentation,
    takeWhile_append_brace t (by decide), drop_append_brace t s hlength]
  generalize countWhile (fun c => c == ' ' || c == '\t') s +
    ((s.drop (countWhile (fun c => c == ' ' || c == '\t') s)).takeWhile Char.isAlpha).length = before at h ⊢
  generalize String.ofList _ = name at h ⊢
  split at h
  · exact h
  · exact h
  · split at h
    · cases h
    · rename_i count hcount
      obtain ⟨line, r, hline, rfl⟩ := lineEnd?_spec hcount
      have htake : (s.drop before ++ '\x7d' :: t).take line.length = (s.drop before).take line.length := by
        rw [hline, List.append_assoc, List.take_left, List.take_left]
      have hdrop : (s.drop before ++ '\x7d' :: t).drop line.length =
          (s.drop before).drop line.length ++ '\x7d' :: t := by
        rw [hline, List.append_assoc, List.drop_left, List.drop_left]
      rw [lineEnd?_append hcount]
      dsimp only
      rw [htake, hdrop, blankLines_append]
      exact h

end Lexeme

/-! ## Literals -/

namespace Literal

variable (t : List Char)

theorem run_append {quote : Char} (h : quote ≠ '\x7d') (s : List Char) :
    run quote (s ++ '\x7d' :: t) = run quote s := by
  rw [run, run, Lexeme.takeWhile_append_brace t (by simpa using h.symm)]

theorem run_le (quote : Char) (s : List Char) : run quote s ≤ s.length := (List.takeWhile_prefix _).length_le

theorem opening?_append {s : List Char} (hne : s ≠ []) : opening? (s ++ '\x7d' :: t) = opening? s := by
  conv_rhs => unfold opening?
  split
  · rfl
  · rfl
  · rfl
  · rfl
  · rename_i hquote hverbatim hat hdollar
    rw [opening?]
    · dsimp only
      rw [run_append t (by decide), Lexeme.drop_append_brace t s (run_le _ s), run_append t (by decide)]
    · exact Lexeme.not_append_eq t ['\''] rfl hquote
    · exact Lexeme.not_append_eq t ['@', '"'] rfl hverbatim
    · exact Lexeme.not_append_eq t ['@', '$', '"'] rfl hat
    · exact Lexeme.not_append_eq t ['$', '@', '"'] rfl hdollar

theorem escapeLength?_append (s : List Char) : escapeLength? (s ++ '\x7d' :: t) = escapeLength? s := by
  have hdigits (r : List Char) : (r ++ '\x7d' :: t).takeWhile isHexDigit = r.takeWhile isHexDigit :=
    Lexeme.takeWhile_append_brace t (by decide) r
  conv_rhs => unfold escapeLength?
  split
  · rw [List.cons_append, escapeLength?, hdigits]
  · rw [List.cons_append, escapeLength?, hdigits]
  · rw [List.cons_append, escapeLength?, hdigits]
  · rename_i c r hx hu hU
    rw [List.cons_append, escapeLength?]
    · exact hx
    · exact hu
    · exact hU
  · rfl

theorem characterLength?_append {s : List Char} {n : Nat} (h : characterLength? s = some n) :
    characterLength? (s ++ '\x7d' :: t) = some n := by
  unfold characterLength? at h
  split at h
  · rename_i r
    split at h
    · rename_i length hlength
      split at h
      · rename_i hquote
        have hle : length ≤ r.length := by
          by_contra hlt
          rw [List.drop_of_length_le (by omega)] at hquote
          cases hquote
        have hhead : ((r ++ '\x7d' :: t).drop length).head? = some '\'' := by
          rw [Lexeme.drop_append_brace t r hle, List.head?_append, hquote]
          rfl
        rw [List.cons_append, List.cons_append, characterLength?, escapeLength?_append, hlength]
        dsimp only
        rw [if_pos hhead]
        exact h
      · cases h
    · cases h
  · rename_i c r hc
    rw [List.cons_append, List.cons_append, List.cons_append, characterLength?]
    · exact h
    · exact hc
  · cases h

/-! ### Steps -/

/-- Whether a text has a character that is no closing brace. -/
def HasOther (s : List Char) : Prop := ∃ c ∈ s, c ≠ '\x7d'

theorem HasOther.ne_nil {s : List Char} (h : HasOther s) : s ≠ [] := by
  obtain ⟨c, hc, -⟩ := h
  exact List.ne_nil_of_mem hc

theorem run_append_of_hasOther (quote : Char) {s : List Char} (h : HasOther s) :
    run quote (s ++ '\x7d' :: t) = run quote s := by
  by_cases hquote : quote = '\x7d'
  · subst hquote
    obtain ⟨c, hmem, hc⟩ := h
    induction s with
    | nil => cases hmem
    | cons d r ih =>
      by_cases hd : d = '\x7d'
      · subst hd
        have hrest := ih ((List.mem_cons.1 hmem).resolve_left hc)
        simp only [run, List.cons_append, List.takeWhile_cons_of_pos, beq_self_eq_true, List.length_cons] at hrest ⊢
        rw [hrest]
      · simp [run, hd]
  · exact run_append t hquote s

theorem step_style_append (style : Style) {s : List Char} (h : HasOther s) :
    style.step (s ++ '\x7d' :: t) = style.step s := by
  obtain ⟨c, r, rfl⟩ := List.exists_cons_of_ne_nil h.ne_nil
  have hopen : run '\x7b' (c :: (r ++ '\x7d' :: t)) = run '\x7b' (c :: r) := run_append t (by decide) (c :: r)
  unfold Style.step
  dsimp only
  rw [run_append_of_hasOther t style.quote h, List.cons_append]
  congr 1
  -- Past the first character a step looks at an escape, at a second quote or at a run of opening braces.
  cases style.escape with
  | backslash =>
    by_cases hslash : c = '\\'
    · subst hslash
      simp only [escapeLength?_append]
    · by_cases hfeed : c = '\n'
      · subst hfeed
        rfl
      · by_cases hbrace : c = '\x7b'
        · subst hbrace
          simp only [hopen]
        · simp [hslash, hfeed, hbrace]
  | doubled =>
    by_cases hdouble : c = '"'
    · subst hdouble
      cases r with
      | nil => simp
      | cons d r =>
        by_cases hboth : d = '"'
        · subst hboth
          rfl
        · simp [hboth]
    · by_cases hbrace : c = '\x7b'
      · subst hbrace
        simp only [hopen]
      · simp [hdouble, hbrace]
  | none =>
    by_cases hbrace : c = '\x7b'
    · subst hbrace
      simp only [hopen]
    · simp [hbrace]

theorem codeStep_append (part : Part) {s : List Char} (hne : s ≠ []) :
    codeStep part (s ++ '\x7d' :: t) = codeStep part s := by
  obtain ⟨c, r, rfl⟩ := List.exists_cons_of_ne_nil hne
  unfold codeStep
  rw [opening?_append t hne, List.cons_append]
  cases opening? (c :: r) with
  | some opened => rfl
  | none =>
    by_cases hbracket : c ∈ ['(', '[', '\x7b', ')', ']', '\x7d']
    · simp only [List.mem_cons, List.not_mem_nil, or_false] at hbracket
      rcases hbracket with rfl | rfl | rfl | rfl | rfl | rfl <;> rfl
    · simp only [List.mem_cons, List.not_mem_nil, or_false, not_or] at hbracket
      simp [hbracket]

theorem step_append (part : Part) {s : List Char} (h : HasOther s) :
    part.step (s ++ '\x7d' :: t) = part.step s := by
  have hne := h.ne_nil
  unfold Part.step
  rw [run_append_of_hasOther t _ h, codeStep_append t part hne, Lexeme.head?_append_brace t hne]
  cases part with
  | text style => exact step_style_append t style h
  | format braces => rfl
  | bracket close => rfl
  | hole braces =>
    dsimp only
    congr 1
    match s with
    | [] => exact absurd rfl hne
    | [c] =>
      by_cases hc : c = ':'
      · subst hc
        simp
      · simp [hc]
    | c :: d :: r =>
      by_cases hc : c = ':'
      · subst hc
        by_cases hd : d = ':'
        · subst hd
          rfl
        · simp [hd]
      · simp [hc]

/-! ### Whole literals -/

/-- A literal that ends is scanned in the same way up to its end. -/
theorem scan_append {parts : List Part} {style : Style} {taken n : Nat} {s : List Char}
    (hparts : parts = [] ∨ ∃ others, parts = others ++ [.text style]) (hquotes : 0 < style.quotes)
    (hquote : style.quote ≠ '\x7d') (h : scan parts taken s = some n) :
    scan parts taken (s ++ '\x7d' :: t) = some n := by
  induction s generalizing parts taken n with
  | nil =>
    obtain ⟨rfl, rfl, rfl⟩ := scan_end h
    rfl
  | cons c r ih =>
    cases taken with
    | succ taken =>
      obtain ⟨m, hm, rfl⟩ := Option.map_eq_some_iff.1 h
      exact congrArg (Option.map (· + 1)) (ih hparts hm)
    | zero =>
      rcases hparts with rfl | ⟨others, hparts⟩
      · exact h
      -- What is scanned ends in a quote, so that a step does not look past the end.
      · have hother : HasOther (c :: r) := by
          obtain ⟨d, hlast, hd⟩ := scan_spec hparts hquotes h
          refine ⟨d, List.mem_of_mem_take (List.mem_of_getLast? hlast), ?_⟩
          rcases hd with rfl | rfl
          · exact hquote
          · decide
        obtain ⟨part, rest, rfl⟩ := List.exists_cons_of_ne_nil (l := parts) (by simp [hparts])
        have hstep := step_append t part hother
        obtain ⟨continued, count, m, hcount, hm, rfl⟩ := exists_step_of_scan h
        rw [hcount, List.cons_append] at hstep
        rw [List.cons_append, scan, hstep]
        refine congrArg (Option.map (· + 1)) (ih ?_ hm)
        cases others with
        | cons other others =>
          obtain ⟨rfl, rfl⟩ := List.cons.inj hparts
          exact .inr ⟨continued ++ others, (List.append_assoc _ _ _).symm⟩
        | nil =>
          obtain ⟨rfl, rfl⟩ := List.cons.inj hparts
          rcases step_spec hquotes hcount with ⟨inner, rfl⟩ | ⟨rfl, -⟩
          · exact .inr ⟨inner, List.append_nil _⟩
          · exact .inl rfl

theorem length?_append {s : List Char} {n : Nat} (h : length? s = some n) : length? (s ++ '\x7d' :: t) = some n := by
  have hne : s ≠ [] := by
    rintro rfl
    cases h
  unfold length? at h ⊢
  rw [opening?_append t hne]
  split at h
  · cases h
  · rename_i style count hopening
    obtain ⟨hquotes, -, hquote⟩ := opening?_spec hopening
    refine scan_append t (.inr ⟨[], rfl⟩) hquotes ?_ h
    rcases hquote with hquote | hquote
    · simp [hquote]
    · simp [hquote]

end Literal

namespace Lexeme

/-! ## Pieces -/

variable (t : List Char)

theorem literal?_append {s : List Char} {kind : Kind} {n : Nat} (h : literal? s = some (kind, n)) :
    literal? (s ++ '\x7d' :: t) = some (kind, n) := by
  have hne : s ≠ [] := by
    rintro rfl
    cases h
  unfold literal? at h ⊢
  rw [head?_append_brace t hne]
  split at h
  · rename_i hquote
    obtain ⟨m, hm, heq⟩ := Option.map_eq_some_iff.1 h
    rw [if_pos hquote, Literal.characterLength?_append t hm, Option.map_some, heq]
  · rename_i hquote
    rw [if_neg hquote]
    split at h
    · cases h
    · rename_i length hlength
      rw [Literal.length?_append t hlength]
      dsimp only
      rw [drop_append_brace t s (Literal.length?_le hlength)]
      match hdrop : s.drop length with
      | [] =>
        rw [hdrop] at h
        rw [← h]
        cases t with
        | nil => rfl
        | cons d r => by_cases hd : d = '8' <;> simp [hd]
      | [u] =>
        rw [hdrop] at h
        rw [← h]
        simp
      | u :: v :: r =>
        rw [hdrop] at h
        rw [← h]
        by_cases hv : v = '8'
        · subst hv
          rfl
        · simp [hv]

/-- A piece ends where it does with a closing brace after the text, unless it is a comment that goes to the end of
its line and is not there yet. -/
theorem piece?_append {s : List Char} {kind : Kind} {n : Nat} (h : piece? s = some (kind, n))
    (hline : kind = .trivia .comment → ∀ r, s = '/' :: '/' :: r → n < s.length) :
    piece? (s ++ '\x7d' :: t) = some (kind, n) := by
  cases s with
  | nil => cases h
  | cons c r =>
    have hne := List.cons_ne_nil c r
    have hopening := Literal.opening?_append t hne
    have hword := wordLength?_append t hne
    have hnumber := numberLength?_append t hne
    have hmark := markLength?_append t hne
    have hspace := countWhile_append_brace t (p := isSpace) (by decide) r
    have hhead {d : Char} (hd : '\x7d' ≠ d) : ((r ++ '\x7d' :: t).head? == some d) = (r.head? == some d) := by
      cases r with
      | nil => simp [hd]
      | cons e r => rfl
    rw [List.cons_append] at hopening hword hnumber hmark ⊢
    unfold piece? at h ⊢
    dsimp only at h ⊢
    rw [hspace, hhead (by decide), hhead (by decide), hopening, hword, hnumber, hmark]
    split at h
    · rename_i hblank
      rw [if_pos hblank, h]
    · rename_i hblank
      rw [if_neg hblank]
      split at h
      · rename_i hhash
        obtain ⟨⟨other, m⟩, hdirective, heq⟩ := Option.map_eq_some_iff.1 h
        rw [if_pos hhash, directiveAfterHash?_append t hdirective, ← heq]
        rfl
      · rename_i hhash
        rw [if_neg hhash]
        split at h
        · rename_i hslash
          obtain ⟨m, hcomment, heq⟩ := Option.map_eq_some_iff.1 h
          obtain ⟨rfl, rfl⟩ := Prod.mk.inj heq
          have happend := commentLength?_append t hcomment (hline rfl)
          rw [List.cons_append] at happend
          rw [if_pos hslash, happend]
          rfl
        · rename_i hslash
          rw [if_neg hslash]
          split at h
          · rename_i hliteral
            rw [if_pos hliteral]
            exact literal?_append t h
          · rename_i hliteral
            rw [if_neg hliteral]
            exact h

/-! ## Texts -/

/-- What it means that the text before the rest of a source is cut into some pieces, and the rest then as a source of
its own. -/
def Cuts (s : List Char) (ls : List Lexeme) (rest : List Char) : Prop :=
  ofSource? (s ++ rest) = (ofSource? rest).map (ls ++ ·)

theorem Cuts.append {s more rest : List Char} {ls ms : List Lexeme} (h : Cuts s ls (more ++ rest))
    (hmore : Cuts more ms rest) : Cuts (s ++ more) (ls ++ ms) rest := by
  rw [Cuts] at h hmore ⊢
  rw [List.append_assoc, h, hmore, Option.map_map]
  congr 1
  funext others
  exact (List.append_assoc ls ms others).symm

theorem cuts_of_piece? {s rest : List Char} {kind : Kind} (hne : s ≠ [])
    (h : piece? (s ++ rest) = some (kind, s.length)) : Cuts s [⟨kind, s⟩] rest := by
  obtain ⟨c, r, rfl⟩ := List.exists_cons_of_ne_nil hne
  rw [List.cons_append] at h
  rw [Cuts, List.cons_append, ofSource?_cons, h, Option.bind_some]
  simp

/-- Whether some pieces end in a comment that goes to the end of its line. -/
def EndsInLineComment (ls : List Lexeme) : Prop :=
  ∃ r, ls.getLast? = some ⟨.trivia .comment, '/' :: '/' :: r⟩

/-- A text is cut as before when a closing brace follows it, unless the brace would go into a comment. -/
theorem cuts_of_ofSource? {s : List Char} {ls : List Lexeme} (h : ofSource? s = some ls)
    (hline : ¬ EndsInLineComment ls) : Cuts s ls ('\x7d' :: t) := by
  induction ls generalizing s with
  | nil =>
    have htexts := ofSource?_texts h
    rw [Cuts, ← htexts]
    simp
  | cons lexeme ls ih =>
    obtain ⟨c, r, length, rfl, hpiece, htext, hrest⟩ := exists_of_ofSource?_eq_cons h
    have hle := piece?_le hpiece
    simp only [List.length_cons] at hle
    have hinner : ¬ EndsInLineComment ls := by
      rintro ⟨u, hlast⟩
      exact hline ⟨u, by rw [List.getLast?_cons, hlast]; rfl⟩
    have hopen : lexeme.kind = .trivia .comment → ∀ u, c :: r = '/' :: '/' :: u → length < (c :: r).length := by
      intro hkind u heq
      by_contra hge
      simp only [List.length_cons] at hge
      rw [List.drop_of_length_le (by omega)] at hrest
      rw [List.take_of_length_le (by omega), heq] at htext
      obtain rfl := Option.some.inj hrest
      obtain ⟨kind, text⟩ := lexeme
      dsimp only at hkind htext
      subst hkind htext
      exact hline ⟨u, rfl⟩
    have happend := piece?_append t hpiece hopen
    have hcuts := ih hrest hinner
    rw [Cuts] at hcuts ⊢
    rw [List.cons_append] at happend ⊢
    rw [ofSource?_cons, happend, Option.bind_some]
    dsimp only
    rw [drop_append_brace t r (by omega), List.take_append_of_le_length (by omega), hcuts, ← htext, Option.map_map]
    rfl

end Lexeme

end TypeBridge.Source
