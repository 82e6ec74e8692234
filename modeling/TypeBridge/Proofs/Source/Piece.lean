import TypeBridge.Proofs.Source.Written

/-!
# Where pieces end

A source is cut piece by piece: after a piece, what is left is cut as a source of its own. Blanks are cut together, so
no two pieces of blanks follow one another; a directive goes on to the last line feed of the blanks after it.

Results:
* `ofSource?_cons`, `exists_of_ofSource?_eq_cons`: one piece after another.
* `isChain_isApart`: what cannot follow what.
* `getLast?_directive`, `notMem_takeWhile_directive`: what directives end in, and what follows them.
-/
namespace TypeBridge.Source

namespace Lexeme

theorem take_countWhile (p : Char → Bool) (s : List Char) : s.take (countWhile p s) = s.takeWhile p :=
  (List.prefix_iff_eq_take.1 (List.takeWhile_prefix p)).symm

theorem drop_countWhile (p : Char → Bool) (s : List Char) : s.drop (countWhile p s) = s.dropWhile p := by
  have h : (s.takeWhile p ++ s.dropWhile p).drop (s.takeWhile p).length = s.dropWhile p := List.drop_left
  rwa [List.takeWhile_append_dropWhile] at h

/-! ## One piece after another -/

theorem cut_eq_cut_drop (piece : List Char → Option (Kind × Nat)) (taken : Nat) (s : List Char) :
    cut piece taken s = cut piece 0 (s.drop taken) := by
  induction s generalizing taken with
  | nil => cases taken <;> rfl
  | cons c r ih =>
    cases taken with
    | zero => rfl
    | succ taken => exact ih taken

/-- What is left after a piece is cut as a source of its own. -/
theorem ofSource?_cons (c : Char) (r : List Char) :
    ofSource? (c :: r) = (piece? (c :: r)).bind fun (kind, length) =>
      (ofSource? (r.drop (length - 1))).map (⟨kind, c :: r.take (length - 1)⟩ :: ·) := by
  rw [ofSource?, cut]
  cases piece? (c :: r) with
  | none => rfl
  | some piece =>
    obtain ⟨kind, length⟩ := piece
    dsimp only [Option.bind_some]
    rw [cut_eq_cut_drop, ofSource?]

theorem exists_of_ofSource?_eq_cons {s : List Char} {lexeme : Lexeme} {ls : List Lexeme}
    (h : ofSource? s = some (lexeme :: ls)) :
    ∃ c r length, s = c :: r ∧ piece? (c :: r) = some (lexeme.kind, length) ∧
      lexeme.text = c :: r.take (length - 1) ∧ ofSource? (r.drop (length - 1)) = some ls := by
  cases s with
  | nil => cases h
  | cons c r =>
    rw [ofSource?_cons] at h
    obtain ⟨⟨kind, length⟩, hpiece, h⟩ := Option.bind_eq_some_iff.1 h
    obtain ⟨others, hothers, heq⟩ := Option.map_eq_some_iff.1 h
    obtain ⟨rfl, rfl⟩ := List.cons.inj heq
    exact ⟨c, r, length, rfl, hpiece, rfl, hothers⟩

/-- Only blanks make a piece of blanks. -/
theorem isSpace_of_piece? {c : Char} {r : List Char} {length : Nat}
    (h : piece? (c :: r) = some (.trivia .blank, length)) :
    isSpace c = true ∧ length = 1 + countWhile isSpace r := by
  rcases piece?_eq_some h with ⟨hspace, -, hlength⟩ | ⟨-, n, hdirective, -⟩ | ⟨hkind, -⟩ | hliteral | ⟨hkind, -⟩ |
    ⟨hkind, -⟩ | ⟨hkind, -⟩
  · exact ⟨hspace, hlength⟩
  · rcases kind_directiveAfterHash? hdirective with hkind | ⟨mark, hkind⟩
    · cases hkind
    · cases hkind
  · cases hkind
  · rcases kind_literal? hliteral with hkind | hkind
    · cases hkind
    · cases hkind
  · cases hkind
  · cases hkind
  · cases hkind

/-- Only `#` and a name make a directive. -/
theorem directive_of_piece? {c : Char} {r : List Char} {length : Nat}
    (h : piece? (c :: r) = some (.trivia .directive, length)) :
    c = '#' ∧ ∃ n, directiveAfterHash? r = some (.trivia .directive, n) ∧ length = n + 1 := by
  rcases piece?_eq_some h with ⟨-, hkind, -⟩ | hdirective | ⟨hkind, -⟩ | hliteral | ⟨hkind, -⟩ | ⟨hkind, -⟩ |
    ⟨hkind, -⟩
  · cases hkind
  · exact hdirective
  · cases hkind
  · rcases kind_literal? hliteral with hkind | hkind
    · cases hkind
    · cases hkind
  · cases hkind
  · cases hkind
  · cases hkind

/-! ## Blank lines -/

/-- The blanks of a text up to the last line feed among them, and those after it. -/
theorem blankLines_spec (s : List Char) :
    ∃ lines rest, s.takeWhile isSpace = lines ++ rest ∧ lines.length = blankLines s ∧ '\n' ∉ rest ∧
      (lines = [] ∨ lines.getLast? = some '\n') := by
  let blanks := s.takeWhile isSpace
  let rest := (blanks.reverse.takeWhile (· != '\n')).reverse
  let lines := (blanks.reverse.dropWhile (· != '\n')).reverse
  have heq : blanks = lines ++ rest := by
    rw [← List.reverse_append, List.takeWhile_append_dropWhile, List.reverse_reverse]
  refine ⟨lines, rest, heq, ?_, ?_, ?_⟩
  · have hlength := congrArg List.length heq
    rw [List.length_append] at hlength
    have hrest : rest.length = countWhile (· != '\n') blanks.reverse := List.length_reverse
    have hlines : blankLines s = blanks.length - countWhile (· != '\n') blanks.reverse := rfl
    omega
  · intro hmem
    have hfeed := List.mem_takeWhile_imp (List.mem_reverse.1 hmem)
    simp at hfeed
  · cases hdrop : blanks.reverse.dropWhile (· != '\n') with
    | nil => exact .inl (by simp only [lines, hdrop, List.reverse_nil])
    | cons c r =>
      have hc := List.head_dropWhile_not (· != '\n') (l := blanks.reverse) (by rw [hdrop]; exact List.cons_ne_nil _ _)
      simp only [hdrop, List.head_cons, bne_eq_false_iff_eq] at hc
      exact .inr (by simp only [lines, hdrop, List.reverse_cons, List.getLast?_concat, hc])

/-- No line feed is among the blanks that are left after blank lines. -/
theorem notMem_takeWhile_drop_blankLines (s : List Char) :
    '\n' ∉ (s.drop (blankLines s)).takeWhile isSpace := by
  obtain ⟨lines, rest, heq, hlength, hfeed, -⟩ := blankLines_spec s
  have hs : s = lines ++ (rest ++ s.dropWhile isSpace) := by
    rw [← List.append_assoc, ← heq, List.takeWhile_append_dropWhile]
  have hrest : ∀ c ∈ rest, isSpace c = true := fun c hc =>
    List.mem_takeWhile_imp (heq ▸ List.mem_append_right lines hc)
  have hnil : (s.dropWhile isSpace).takeWhile isSpace = [] := by
    rw [List.takeWhile_eq_nil_iff]
    intro hpos hspace
    have hhead := List.head_dropWhile_not isSpace (l := s) (List.ne_nil_of_length_pos hpos)
    rw [List.head_eq_getElem] at hhead
    exact Bool.noConfusion (hspace.symm.trans hhead)
  have hdrop : s.drop (blankLines s) = rest ++ s.dropWhile isSpace := by
    rw [← hlength]
    conv_lhs => rw [hs]
    exact List.drop_left
  rw [hdrop, List.takeWhile_append_of_pos hrest, hnil, List.append_nil]
  exact hfeed

/-- Blank lines end in a line feed. -/
theorem getLast?_take_blankLines {r : List Char} :
    (('\n' :: r).take (blankLines ('\n' :: r))).getLast? = some '\n' := by
  obtain ⟨lines, rest, heq, hlength, hfeed, hlast⟩ := blankLines_spec ('\n' :: r)
  have hstart : lines <+: '\n' :: r := (List.prefix_append lines rest).trans (heq ▸ List.takeWhile_prefix isSpace)
  rw [← hlength, ← List.prefix_iff_eq_take.1 hstart]
  refine hlast.resolve_left ?_
  rintro rfl
  have hmem : '\n' ∈ ('\n' :: r).takeWhile isSpace := by
    rw [List.takeWhile_cons_of_pos (by decide)]
    exact List.mem_cons_self
  rw [heq] at hmem
  exact hfeed hmem

/-! ## Directives -/

theorem lineEnd?_spec {s : List Char} {count : Nat} (h : lineEnd? s = some count) :
    ∃ line r, s = line ++ '\n' :: r ∧ line.length = count := by
  unfold lineEnd? at h
  dsimp only at h
  split at h
  · rename_i hlt
    obtain rfl := Option.some.inj h
    have hs : s.takeWhile (· != '\n') ++ s.dropWhile (· != '\n') = s := List.takeWhile_append_dropWhile
    cases hdrop : s.dropWhile (· != '\n') with
    | nil =>
      rw [hdrop, List.append_nil] at hs
      rw [countWhile, hs] at hlt
      omega
    | cons c r =>
      have hc := List.head_dropWhile_not (· != '\n') (l := s) (by rw [hdrop]; exact List.cons_ne_nil c r)
      simp only [hdrop, List.head_cons, bne_eq_false_iff_eq] at hc
      rw [hdrop, hc] at hs
      exact ⟨_, r, hs.symm, rfl⟩
  · cases h

/-- A directive that divides nothing takes its line and the blank lines after it. -/
theorem directive_spec {s : List Char} {n : Nat} (h : directiveAfterHash? s = some (.trivia .directive, n)) :
    ∃ first r, s = first ++ '\n' :: r ∧ n = first.length + blankLines ('\n' :: r) := by
  cases isDirective_of_directiveAfterHash? h with
  | line before count hcount =>
    obtain ⟨line, r, hline, rfl⟩ := lineEnd?_spec hcount
    have hlt : before < s.length := by
      have hpos := congrArg List.length hline
      simp only [List.length_drop, List.length_append, List.length_cons] at hpos
      omega
    refine ⟨s.take before ++ line, r, ?_, ?_⟩
    · rw [List.append_assoc, ← hline, List.take_append_drop]
    · rw [hline, List.drop_left, List.length_append, List.length_take, Nat.min_eq_left hlt.le]

/-- The text of a directive ends its line. -/
theorem getLast?_directive {c : Char} {r : List Char} {length : Nat}
    (h : piece? (c :: r) = some (.trivia .directive, length)) : (c :: r.take (length - 1)).getLast? = some '\n' := by
  obtain ⟨-, n, hdirective, rfl⟩ := directive_of_piece? h
  obtain ⟨first, rest, rfl, rfl⟩ := directive_spec hdirective
  rw [Nat.add_sub_cancel, List.take_append, List.take_of_length_le (Nat.le_add_right _ _),
    Nat.add_sub_cancel_left, ← List.cons_append, List.getLast?_append, getLast?_take_blankLines]
  rfl

/-- What is left after a directive has no line feed among its blanks. -/
theorem notMem_takeWhile_directive {c : Char} {r : List Char} {length : Nat}
    (h : piece? (c :: r) = some (.trivia .directive, length)) : '\n' ∉ (r.drop (length - 1)).takeWhile isSpace := by
  obtain ⟨-, n, hdirective, rfl⟩ := directive_of_piece? h
  obtain ⟨first, rest, rfl, rfl⟩ := directive_spec hdirective
  rw [Nat.add_sub_cancel, List.drop_length_add_append]
  exact notMem_takeWhile_drop_blankLines _

/-! ## What follows what -/

/-- What it means that a piece may come right before another one. -/
structure IsApart (lexeme other : Lexeme) : Prop where
  /-- Blanks are cut together. -/
  blank : lexeme.kind = .trivia .blank → other.kind ≠ .trivia .blank
  /-- A directive goes on to the last line feed of the blanks after it. -/
  directive : lexeme.kind = .trivia .directive → other.kind = .trivia .blank → '\n' ∉ other.text

theorem isApart_of_ofSource? {s : List Char} {lexeme other : Lexeme} {ls : List Lexeme}
    (h : ofSource? s = some (lexeme :: other :: ls)) : IsApart lexeme other := by
  obtain ⟨c, r, length, -, hpiece, -, hrest⟩ := exists_of_ofSource?_eq_cons h
  obtain ⟨d, t, more, hdrop, hother, htext, -⟩ := exists_of_ofSource?_eq_cons hrest
  refine ⟨fun hblank hboth => ?_, fun hdirective hblank => ?_⟩
  · rw [hblank] at hpiece
    rw [hboth] at hother
    obtain ⟨-, rfl⟩ := isSpace_of_piece? hpiece
    obtain ⟨hspace, -⟩ := isSpace_of_piece? hother
    rw [Nat.add_sub_cancel_left, drop_countWhile] at hdrop
    have hhead := List.head_dropWhile_not isSpace (l := r) (by rw [hdrop]; exact List.cons_ne_nil d t)
    simp only [hdrop, List.head_cons] at hhead
    exact Bool.noConfusion (hspace.symm.trans hhead)
  · rw [hdirective] at hpiece
    rw [hblank] at hother
    obtain ⟨hspace, rfl⟩ := isSpace_of_piece? hother
    have hfeed := notMem_takeWhile_directive hpiece
    rw [hdrop, List.takeWhile_cons_of_pos hspace, ← take_countWhile] at hfeed
    rwa [htext, Nat.add_sub_cancel_left]

theorem isChain_isApart {s : List Char} {ls : List Lexeme} (h : ofSource? s = some ls) : ls.IsChain IsApart := by
  induction ls generalizing s with
  | nil => exact .nil
  | cons lexeme ls ih =>
    obtain ⟨c, r, length, -, -, -, hrest⟩ := exists_of_ofSource?_eq_cons h
    cases ls with
    | nil => exact .singleton _
    | cons other ls => exact .cons_cons (isApart_of_ofSource? h) (ih hrest)

end Lexeme

end TypeBridge.Source
