import TypeBridge.Proofs.Source.Piece

/-!
# What tokens end in

No token ends in a blank but the directives that begin a branch: words, numbers and marks have no blanks in them, and a
literal ends in its quote.

Results:
* `noBlank_numberLength?`, `noBlank_markLength?`: numbers and marks.
* `scan_spec`: a literal ends in its quote.
* `endsInText_of_token`: all tokens.
-/
namespace TypeBridge.Source

/-- Whether a text ends in a character that is not blank. -/
def EndsInText (s : List Char) : Prop := ∃ c, s.getLast? = some c ∧ Text.isBlank c = false

theorem endsInText_of_forall {s : List Char} (hne : s ≠ []) (h : ∀ c ∈ s, Text.isBlank c = false) : EndsInText s :=
  ⟨s.getLast hne, List.getLast?_eq_some_getLast hne, h _ (List.getLast_mem hne)⟩

theorem EndsInText.append_left {s : List Char} (h : EndsInText s) (first : List Char) : EndsInText (first ++ s) := by
  obtain ⟨c, hlast, hc⟩ := h
  exact ⟨c, by rw [List.getLast?_append, hlast]; rfl, hc⟩

theorem trimEnd_of_endsInText {s : List Char} (h : EndsInText s) : Text.trimEnd s = s := by
  obtain ⟨c, hlast, hc⟩ := h
  obtain ⟨first, rfl⟩ := List.getLast?_eq_some_iff.1 hlast
  simp [Text.trimEnd, hc]

namespace Lexeme

/-! ## Numbers -/

/-- Whether there is no blank among the given number of characters at the beginning of a text. -/
def NoBlank (s : List Char) (n : Nat) : Prop := ∀ c ∈ s.take n, Text.isBlank c = false

theorem noBlank_zero (s : List Char) : NoBlank s 0 := by simp [NoBlank]

theorem NoBlank.add {s : List Char} {m n : Nat} (hm : NoBlank s m) (hn : NoBlank (s.drop m) n) : NoBlank s (m + n) := by
  intro c hc
  rw [List.take_add, List.mem_append] at hc
  rcases hc with hc | hc
  · exact hm c hc
  · exact hn c hc

theorem noBlank_cons {c : Char} {r : List Char} {n : Nat} (hc : Text.isBlank c = false) (hr : NoBlank r n) :
    NoBlank (c :: r) (n + 1) := by
  rw [NoBlank, List.take_succ_cons, List.forall_mem_cons]
  exact ⟨hc, hr⟩

theorem noBlank_countWhile {p : Char → Bool} (hp : ∀ c, p c = true → Text.isBlank c = false) (s : List Char) :
    NoBlank s (countWhile p s) :=
  fun c hc => hp c (all_of_mem_take_countWhile p s c hc)

theorem not_isBlank_of_le {c : Char} (hlow : 33 ≤ c.toNat) (hhigh : c.toNat ≤ 126) : Text.isBlank c = false := by
  simp only [Text.isBlank, Bool.or_eq_false_iff, Bool.and_eq_false_iff, decide_eq_false_iff_not,
    beq_eq_false_iff_ne]
  omega

theorem not_isBlank_of_isDigit {c : Char} (h : c.isDigit = true) : Text.isBlank c = false :=
  Text.not_isBlank_of_isAlphanum (by simp [Char.isAlphanum, h])

theorem not_isBlank_of_isDigitPart {c : Char} (h : isDigitPart c = true) : Text.isBlank c = false := by
  rw [isDigitPart, Bool.or_eq_true] at h
  rcases h with h | h
  · exact not_isBlank_of_isDigit h
  · rw [eq_of_beq h]
    decide

theorem not_isBlank_of_isHexPart {c : Char} (h : isHexPart c = true) : Text.isBlank c = false := by
  simp only [isHexPart, Literal.isHexDigit, Bool.or_eq_true, Bool.and_eq_true, decide_eq_true_eq] at h
  rcases h with h | (h | h) | h
  · exact not_isBlank_of_isDigitPart h
  · exact not_isBlank_of_isDigit h
  · exact not_isBlank_of_le (Nat.le_trans (by decide) (UInt32.le_iff_toNat_le.1 h.1))
      (Nat.le_trans (UInt32.le_iff_toNat_le.1 h.2) (by decide))
  · exact not_isBlank_of_le (Nat.le_trans (by decide) (UInt32.le_iff_toNat_le.1 h.1))
      (Nat.le_trans (UInt32.le_iff_toNat_le.1 h.2) (by decide))

theorem not_isBlank_of_contains {s : List Char} (hs : s.all (!Text.isBlank ·) = true) {c : Char}
    (h : s.contains c = true) : Text.isBlank c = false := by
  simpa using List.all_eq_true.1 hs c (List.contains_iff_mem.1 h)

theorem noBlank_integerSuffix (s : List Char) : NoBlank s (integerSuffix s) :=
  noBlank_countWhile (fun _ hc => not_isBlank_of_contains (s := "uUlL".toList) (by decide) hc) s

theorem noBlank_realSuffix (s : List Char) : NoBlank s (realSuffix s) := by
  unfold realSuffix
  split
  · rename_i c r
    split
    · rename_i hsuffix
      exact noBlank_cons (not_isBlank_of_contains (s := "fFdDmM".toList) (by decide) hsuffix) (noBlank_zero r)
    · exact noBlank_zero _
  · exact noBlank_zero _

theorem noBlank_fractionLength (s : List Char) : NoBlank s (fractionLength s) := by
  unfold fractionLength
  split
  · rename_i d r
    split
    · rename_i hd
      rw [Nat.add_comm]
      exact noBlank_cons (by decide)
        (noBlank_cons (not_isBlank_of_isDigit hd) (noBlank_countWhile (fun _ => not_isBlank_of_isDigitPart) r))
    · exact noBlank_zero _
  · exact noBlank_zero _

theorem noBlank_exponentLength (s : List Char) : NoBlank s (exponentLength s) := by
  have hletter {e : Char} (he : (e == 'e' || e == 'E') = true) : Text.isBlank e = false := by
    rcases Bool.or_eq_true_iff.1 he with he | he
    · rw [eq_of_beq he]
      decide
    · rw [eq_of_beq he]
      decide
  have hmark {sign : Char} (hsign : (sign == '+' || sign == '-') = true) : Text.isBlank sign = false := by
    rcases Bool.or_eq_true_iff.1 hsign with hsign | hsign
    · rw [eq_of_beq hsign]
      decide
    · rw [eq_of_beq hsign]
      decide
  unfold exponentLength
  split
  · rename_i e sign d r
    split
    · rename_i he
      split
      · rename_i hsign
        obtain ⟨hsign, hd⟩ := Bool.and_eq_true_iff.1 hsign
        rw [show 3 + countWhile isDigitPart r = countWhile isDigitPart r + 1 + 1 + 1 by omega]
        exact noBlank_cons (hletter he) (noBlank_cons (hmark hsign) (noBlank_cons (not_isBlank_of_isDigit hd)
          (noBlank_countWhile (fun _ => not_isBlank_of_isDigitPart) r)))
      · split
        · rename_i hsign
          rw [show 2 + countWhile isDigitPart (d :: r) = countWhile isDigitPart (d :: r) + 1 + 1 by omega]
          exact noBlank_cons (hletter he) (noBlank_cons (not_isBlank_of_isDigit hsign)
            (noBlank_countWhile (fun _ => not_isBlank_of_isDigitPart) (d :: r)))
        · exact noBlank_zero _
    · exact noBlank_zero _
  · rename_i e d
    split
    · rename_i hboth
      obtain ⟨he, hd⟩ := Bool.and_eq_true_iff.1 hboth
      exact noBlank_cons (hletter he) (noBlank_cons (not_isBlank_of_isDigit hd) (noBlank_zero []))
    · exact noBlank_zero _
  · exact noBlank_zero _

theorem noBlank_numberTail (s : List Char) : NoBlank s (numberTail s) := by
  unfold numberTail
  dsimp only
  split
  · exact noBlank_integerSuffix s
  · exact (noBlank_exponentLength s).add (noBlank_realSuffix _)

/-- A number has no blanks in it, and at least one character. -/
theorem noBlank_numberLength? {s : List Char} {n : Nat} (h : numberLength? s = some n) : 0 < n ∧ NoBlank s n := by
  have hbased {mark : Char} {r : List Char} {p : Char → Bool} (hmark : Text.isBlank mark = false)
      (hp : ∀ c, p c = true → Text.isBlank c = false) :
      NoBlank ('0' :: mark :: r) (2 + countWhile p r + integerSuffix (r.drop (countWhile p r))) := by
    rw [show ∀ m k, 2 + m + k = m + k + 1 + 1 by omega]
    exact noBlank_cons (by decide) (noBlank_cons hmark ((noBlank_countWhile hp r).add (noBlank_integerSuffix _)))
  unfold numberLength? at h
  split at h
  · obtain rfl := Option.some.inj h
    exact ⟨by omega, hbased (by decide) fun _ => not_isBlank_of_isHexPart⟩
  · obtain rfl := Option.some.inj h
    exact ⟨by omega, hbased (by decide) fun _ => not_isBlank_of_isHexPart⟩
  · obtain rfl := Option.some.inj h
    exact ⟨by omega, hbased (by decide) fun _ => not_isBlank_of_isDigitPart⟩
  · obtain rfl := Option.some.inj h
    exact ⟨by omega, hbased (by decide) fun _ => not_isBlank_of_isDigitPart⟩
  · have hwhole : NoBlank s (if (s.head?.map Char.isDigit).getD false then countWhile isDigitPart s else 0) := by
      split
      · exact noBlank_countWhile (fun _ => not_isBlank_of_isDigitPart) s
      · exact noBlank_zero s
    dsimp only at h
    generalize (if (s.head?.map Char.isDigit).getD false then countWhile isDigitPart s else 0) = whole at h hwhole
    split at h
    · cases h
    · rename_i hdigits
      obtain rfl := Option.some.inj h
      exact ⟨by omega, (hwhole.add (noBlank_fractionLength _)).add (noBlank_numberTail _)⟩

/-! ## Marks -/

/-- A mark has no blanks in it, and at least one character. -/
theorem noBlank_markLength? {s : List Char} {n : Nat} (h : markLength? s = some n) : 0 < n ∧ NoBlank s n := by
  unfold markLength? at h
  split at h
  · rename_i mark hmark
    obtain rfl := Option.some.inj h
    have hmarks : longMarks.all (fun mark => 0 < mark.length && mark.toList.all (!Text.isBlank ·)) = true := by rfl
    have hall := List.all_eq_true.1 hmarks mark (List.mem_of_find?_eq_some hmark)
    simp only [Bool.and_eq_true, decide_eq_true_eq, List.all_eq_true, Bool.not_eq_true'] at hall
    obtain ⟨hpos, hblank⟩ := hall
    have hstart : mark.toList <+: s :=
      List.isPrefixOf_iff_prefix.1 (List.find?_some (p := fun mark : String => mark.toList.isPrefixOf s) hmark)
    refine ⟨hpos, ?_⟩
    rw [NoBlank, ← String.length_toList, ← List.prefix_iff_eq_take.1 hstart]
    exact hblank
  · split at h
    · rename_i d r
      split at h
      · obtain rfl := Option.some.inj h
        exact ⟨by omega, noBlank_cons (by decide) (noBlank_zero _)⟩
      · obtain rfl := Option.some.inj h
        exact ⟨by omega, noBlank_cons (by decide) (noBlank_cons (by decide) (noBlank_zero _))⟩
    · obtain rfl := Option.some.inj h
      exact ⟨by omega, noBlank_cons (by decide) (noBlank_cons (by decide) (noBlank_zero _))⟩
    · rename_i c r _ _ _
      split at h
      · rename_i hshort
        obtain rfl := Option.some.inj h
        exact ⟨by omega, noBlank_cons (not_isBlank_of_contains (by decide) hshort) (noBlank_zero r)⟩
      · cases h
    · cases h

end Lexeme

/-! ## Literals -/

namespace Literal

/-- The quotes at the beginning of a text. -/
theorem eq_of_mem_take_run {quote : Char} {s : List Char} {n : Nat} (h : n ≤ run quote s) :
    ∀ c ∈ s.take n, c = quote :=
  fun c hc => eq_of_beq (Lexeme.all_of_mem_take h c hc)

/-- A step in the text of a literal stays in the literal, or it takes quotes and ends it. -/
theorem step_spec {style : Style} {s : List Char} {continued : List Part} {count : Nat} (hquotes : 0 < style.quotes)
    (h : style.step s = some (continued, count)) :
    (∃ inner, continued = inner ++ [.text style]) ∨
      (continued = [] ∧ 0 < count ∧ count ≤ s.length ∧ ∀ c ∈ s.take count, c = style.quote ∨ c = '"') := by
  have hstay {n : Nat} (heq : some ([Part.text style], n) = some (continued, count)) :
      ∃ inner, continued = inner ++ [.text style] :=
    ⟨[], (Prod.mk.inj (Option.some.inj heq)).1.symm⟩
  unfold Style.step at h
  dsimp only at h
  split at h
  · rename_i hclosed
    obtain ⟨rfl, rfl⟩ := Prod.mk.inj (Option.some.inj h)
    refine .inr ⟨rfl, hquotes, hclosed.1.trans (List.takeWhile_prefix _).length_le, fun c hc => ?_⟩
    exact .inl (eq_of_mem_take_run hclosed.1 c hc)
  · split at h
    · obtain ⟨n, -, heq⟩ := Option.bind_eq_some_iff.1 h
      exact .inl (hstay heq)
    · cases h
    · exact .inl (hstay h)
    · obtain ⟨rfl, rfl⟩ := Prod.mk.inj (Option.some.inj h)
      exact .inr ⟨rfl, by omega, by simp, by simp⟩
    · split at h
      · exact .inl (hstay h)
      · split at h
        · split at h
          · exact .inl (hstay h)
          · exact .inl ⟨[.hole style.braces], (Prod.mk.inj (Option.some.inj h)).1.symm⟩
        · split at h
          · exact .inl (hstay h)
          · exact .inl ⟨[.hole style.braces], (Prod.mk.inj (Option.some.inj h)).1.symm⟩
    · exact .inl (hstay h)

/-- After all parts have ended, only what is taken already is left. -/
theorem scan_nil {taken n : Nat} {s : List Char} (h : scan [] taken s = some n) : n = taken := by
  induction s generalizing taken n with
  | nil =>
    obtain ⟨rfl, -, rfl⟩ := scan_end h
    rfl
  | cons c r ih =>
    cases taken with
    | zero => exact (Option.some.inj h).symm
    | succ taken =>
      obtain ⟨m, hm, rfl⟩ := Option.map_eq_some_iff.1 h
      rw [ih hm]

/-- What is scanned up to the end of a literal ends in its quote. -/
theorem scan_spec {parts others : List Part} {style : Style} {taken n : Nat} {s : List Char}
    (hparts : parts = others ++ [.text style]) (hquotes : 0 < style.quotes) (h : scan parts taken s = some n) :
    ∃ c, (s.take n).getLast? = some c ∧ (c = style.quote ∨ c = '"') := by
  -- The literal itself is the outermost part, so that it is the last one to end.
  induction s generalizing parts others taken n with
  | nil =>
    obtain ⟨-, hnil, -⟩ := scan_end h
    exact absurd (hparts.symm.trans hnil) (by simp)
  | cons c r ih =>
    have hlast {m : Nat} (hm : ∃ d, (r.take m).getLast? = some d ∧ (d = style.quote ∨ d = '"')) :
        ∃ d, ((c :: r).take (m + 1)).getLast? = some d ∧ (d = style.quote ∨ d = '"') := by
      obtain ⟨d, hd, hquote⟩ := hm
      exact ⟨d, by rw [List.take_succ_cons, List.getLast?_cons, hd]; rfl, hquote⟩
    cases taken with
    | succ taken =>
      obtain ⟨m, hm, rfl⟩ := Option.map_eq_some_iff.1 h
      exact hlast (ih hparts hm)
    | zero =>
      obtain ⟨part, rest, hcons⟩ := List.exists_cons_of_ne_nil (l := parts) (by simp [hparts])
      rw [hcons] at h
      obtain ⟨continued, count, m, hstep, hm, rfl⟩ := exists_step_of_scan h
      rw [hparts] at hcons
      cases others with
      | cons other others =>
        obtain ⟨rfl, rfl⟩ := List.cons.inj hcons
        exact hlast (ih (List.append_assoc _ _ _).symm hm)
      | nil =>
        obtain ⟨rfl, rfl⟩ := List.cons.inj hcons
        rcases step_spec hquotes hstep with ⟨inner, rfl⟩ | ⟨rfl, hpos, hlength, hquote⟩
        · rw [List.append_nil] at hm
          exact hlast (ih rfl hm)
        · obtain rfl := scan_nil hm
          rw [Nat.sub_add_cancel hpos]
          have hne : (c :: r).take count ≠ [] := List.ne_nil_of_length_pos (by rw [List.length_take]; omega)
          exact ⟨_, List.getLast?_eq_some_getLast hne, hquote _ (List.getLast_mem hne)⟩

theorem opening?_spec {s : List Char} {style : Style} {n : Nat} (h : opening? s = some (style, n)) :
    0 < style.quotes ∧ 0 < n ∧ (style.quote = '"' ∨ style.quote = '\'') := by
  unfold opening? at h
  split at h
  · obtain ⟨rfl, rfl⟩ := Prod.mk.inj (Option.some.inj h)
    exact ⟨by decide, by decide, .inr rfl⟩
  · obtain ⟨rfl, rfl⟩ := Prod.mk.inj (Option.some.inj h)
    exact ⟨by decide, by decide, .inl rfl⟩
  · obtain ⟨rfl, rfl⟩ := Prod.mk.inj (Option.some.inj h)
    exact ⟨by decide, by decide, .inl rfl⟩
  · obtain ⟨rfl, rfl⟩ := Prod.mk.inj (Option.some.inj h)
    exact ⟨by decide, by decide, .inl rfl⟩
  · dsimp only at h
    split at h
    · obtain ⟨rfl, rfl⟩ := Prod.mk.inj (Option.some.inj h)
      exact ⟨by dsimp only; omega, by omega, .inl rfl⟩
    · split at h
      · obtain ⟨rfl, rfl⟩ := Prod.mk.inj (Option.some.inj h)
        exact ⟨Nat.one_pos, by omega, .inl rfl⟩
      · cases h

/-- A literal ends in a quote. -/
theorem endsInText_of_length? {s : List Char} {n : Nat} (h : length? s = some n) : EndsInText (s.take n) := by
  unfold length? at h
  split at h
  · cases h
  · rename_i style count hopening
    obtain ⟨hquotes, -, hstyle⟩ := opening?_spec hopening
    obtain ⟨c, hc, hquote⟩ := scan_spec (List.nil_append _).symm hquotes h
    refine ⟨c, hc, ?_⟩
    rcases hquote with rfl | rfl
    · rcases hstyle with heq | heq
      · rw [heq]
        decide
      · rw [heq]
        decide
    · decide

theorem endsInText_of_characterLength? {s : List Char} {n : Nat} (h : characterLength? s = some n) :
    EndsInText (s.take n) := by
  unfold characterLength? at h
  split at h
  · rename_i r
    split at h
    · rename_i length _
      split at h
      · rename_i hquote
        obtain rfl := Option.some.inj h
        obtain ⟨t, ht⟩ := List.head?_eq_some_iff.1 hquote
        have htake : ('\'' :: '\\' :: r).take (length + 3) = '\'' :: '\\' :: (r.take length ++ ['\'']) := by
          rw [List.take_succ_cons, List.take_succ_cons, List.take_add, ht]
          rfl
        rw [htake]
        exact EndsInText.append_left ⟨'\'', rfl, by decide⟩ ('\'' :: '\\' :: r.take length)
      · cases h
    · cases h
  · split at h
    · cases h
    · obtain rfl := Option.some.inj h
      exact ⟨'\'', rfl, by decide⟩
  · cases h

end Literal

/-! ## Tokens -/

namespace Lexeme

theorem NoBlank.endsInText {c : Char} {r : List Char} {n : Nat} (h : NoBlank (c :: r) n) (hpos : 0 < n) :
    EndsInText ((c :: r).take n) :=
  endsInText_of_forall (List.ne_nil_of_length_pos (by rw [List.length_take, List.length_cons]; omega)) h

theorem endsInText_of_literal? {s : List Char} {kind : Kind} {n : Nat} (h : literal? s = some (kind, n)) :
    EndsInText (s.take n) := by
  rcases literal?_eq_some h with ⟨-, -, hlength⟩ | ⟨-, length, hlength, rfl | ⟨rfl, u, r, hsuffix⟩⟩
  · exact Literal.endsInText_of_characterLength? hlength
  · exact Literal.endsInText_of_length? hlength
  · rw [List.take_add, hsuffix]
    exact EndsInText.append_left ⟨'8', rfl, by decide⟩ _

theorem isWordText_endsInText {s : List Char} (h : IsWordText s) : EndsInText s := by
  obtain ⟨mark, c, r, rfl, -, hc, hr⟩ := h
  refine EndsInText.append_left (endsInText_of_forall (List.cons_ne_nil c r) ?_) mark
  refine List.forall_mem_cons.2 ⟨not_isBlank_of_isWordPart ?_, fun d hd => not_isBlank_of_isWordPart (hr d hd)⟩
  rw [isWordPart, hc]
  rfl

/-- A directive that goes on or ends a condition ends in its name. -/
theorem endsInText_directiveAfterHash? {s : List Char} {mark : BranchMark} {n : Nat}
    (h : directiveAfterHash? s = some (.token (.branch mark), n)) (hif : mark ≠ .ifBranch)
    (helif : mark ≠ .elifBranch) : EndsInText (s.take n) := by
  have hname (k : Nat) {name : List Char} (hname : (s.drop k).takeWhile Char.isAlpha = name) (hend : EndsInText name) :
      EndsInText (s.take (k + name.length)) := by
    have hstart : name <+: s.drop k := hname ▸ List.takeWhile_prefix _
    rw [List.take_add, ← List.prefix_iff_eq_take.1 hstart]
    exact hend.append_left _
  cases isDirective_of_directiveAfterHash? h with
  | elseBranch k helse => exact hname k helse ⟨'e', rfl, by decide⟩
  | endBranch k hendif => exact hname k hendif ⟨'f', rfl, by decide⟩
  | condition before count hmark _ =>
    rcases hmark with rfl | rfl
    · exact absurd rfl hif
    · exact absurd rfl helif

/-- All tokens end in text but the directives that begin a branch with a condition. -/
theorem endsInText_of_token {c : Char} {r : List Char} {kind : Token.Kind} {length : Nat}
    (h : piece? (c :: r) = some (.token kind, length)) (hif : kind ≠ .branch .ifBranch)
    (helif : kind ≠ .branch .elifBranch) : EndsInText (c :: r.take (length - 1)) := by
  have htext (hend : EndsInText ((c :: r).take length)) : EndsInText (c :: r.take (length - 1)) := by
    cases length with
    | zero =>
      obtain ⟨d, hd, -⟩ := hend
      cases hd
    | succ n => exact hend
  rcases piece?_eq_some h with ⟨-, hkind, -⟩ | ⟨rfl, n, hdirective, rfl⟩ | ⟨hkind, -⟩ | hliteral | ⟨-, hword⟩ |
    ⟨-, hnumber⟩ | ⟨-, hmark⟩
  · cases hkind
  · rcases kind_directiveAfterHash? hdirective with hkind | ⟨mark, hkind⟩
    · cases hkind
    · cases hkind
      have hend := endsInText_directiveAfterHash? hdirective (fun heq => hif (heq ▸ rfl)) fun heq => helif (heq ▸ rfl)
      exact hend.append_left ['#']
  · cases hkind
  · exact htext (endsInText_of_literal? hliteral)
  · exact isWordText_endsInText (isWordText_of_wordLength? hword)
  · obtain ⟨hpos, hblank⟩ := noBlank_numberLength? hnumber
    exact htext (hblank.endsInText hpos)
  · obtain ⟨hpos, hblank⟩ := noBlank_markLength? hmark
    exact htext (hblank.endsInText hpos)

end Lexeme

end TypeBridge.Source
