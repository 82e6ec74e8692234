import TypeBridge.Proofs.Text.Separator
import TypeBridge.Text.Margin
import Mathlib.Data.List.Infix

/-!
# Lines of a text

Lines that are joined are found again when the text is divided. A text that every line break divides has no line
after a break at its end, so an empty last line is lost; a text that only line feeds divide keeps all of its lines.

Results:
* `lines_joinLines_concat`, `lines_joinLines`: dividing at all line breaks.
* `sublist_of_mem_lines`, `exists_mem_lines`: what is in the lines.
* `feedLines_joinLines`, `infix_iff_feedLines`: dividing at line feeds.
-/
namespace TypeBridge.Text

/-- What it means that a text is a single line. -/
def IsSingleLine (s : List Char) : Prop := ∀ c ∈ s, isLineBreak c = false

instance : DecidablePred IsSingleLine := List.decidableBAll _

theorem IsSingleLine.lineFeed_not_mem {s : List Char} (h : IsSingleLine s) : '\n' ∉ s :=
  fun hmem => Bool.noConfusion (h '\n' hmem)

theorem IsSingleLine.of_subset {s t : List Char} (h : IsSingleLine t) (hst : s ⊆ t) : IsSingleLine s :=
  fun c hc => h c (hst hc)

/-! ## Joining -/

theorem joinLines_cons (line : List Char) {ls : List (List Char)} (h : ls ≠ []) :
    joinLines (line :: ls) = line ++ '\n' :: joinLines ls := by
  obtain ⟨second, rest, rfl⟩ := List.exists_cons_of_ne_nil h
  rw [joinLines, joinLines, List.intercalate_cons_cons, List.append_assoc]
  rfl

/-- What stands before the first line stands before all lines. -/
theorem joinLines_append (s line : List Char) (ls : List (List Char)) :
    joinLines ((s ++ line) :: ls) = s ++ joinLines (line :: ls) := by
  cases ls with
  | nil => simp [joinLines]
  | cons next ls =>
    rw [joinLines_cons (s ++ line) (List.cons_ne_nil next ls), joinLines_cons line (List.cons_ne_nil next ls),
      List.append_assoc]

theorem joinLines_concat {ls : List (List Char)} (h : ls ≠ []) (line : List Char) :
    joinLines (ls ++ [line]) = joinLines ls ++ '\n' :: line := by
  rw [joinLines, intercalate_concat ['\n'] h, List.append_assoc]
  rfl

theorem mem_joinLines {ls : List (List Char)} {c : Char} (h : c ∈ joinLines ls) :
    c = '\n' ∨ ∃ line ∈ ls, c ∈ line :=
  (mem_intercalate h).imp_left List.mem_singleton.1

/-! ## Lines that line breaks end -/

theorem lines_cons {c : Char} (h : isLineBreak c = false) (r : List Char) :
    lines (c :: r) = match lines r with
      | [] => [[c]]
      | line :: rest => (c :: line) :: rest := by
  have hreturn : c ≠ '\r' := fun heq => by simp [heq, isLineBreak] at h
  rw [lines]
  · exact if_neg (Bool.eq_false_iff.1 h)
  · rintro r' rfl -
    exact hreturn rfl

theorem lines_append {s : List Char} (h : IsSingleLine s) (t : List Char) :
    lines (s ++ '\n' :: t) = s :: lines t := by
  induction s with
  | nil => simp [lines, isLineBreak]
  | cons c s ih =>
    obtain ⟨hc, hs⟩ := List.forall_mem_cons.1 h
    rw [List.cons_append, lines_cons hc, ih hs]

theorem lines_eq_singleton {s : List Char} (h : IsSingleLine s) (hne : s ≠ []) : lines s = [s] := by
  induction s with
  | nil => exact absurd rfl hne
  | cons c s ih =>
    obtain ⟨hc, hs⟩ := List.forall_mem_cons.1 h
    rw [lines_cons hc]
    cases s with
    | nil => rfl
    | cons d s => rw [ih hs (List.cons_ne_nil d s)]

/-- The lines of lines that are joined; the last of them may be empty, and is lost then. -/
theorem lines_joinLines_concat {ls : List (List Char)} (h : ∀ line ∈ ls, IsSingleLine line) (last : List Char) :
    lines (joinLines (ls ++ [last])) = ls ++ lines last := by
  induction ls with
  | nil => simp [joinLines]
  | cons line ls ih =>
    obtain ⟨hline, hls⟩ := List.forall_mem_cons.1 h
    rw [List.cons_append, joinLines_cons line (by simp), lines_append hline, ih hls, List.cons_append]

theorem lines_joinLines {ls : List (List Char)} (h : ∀ line ∈ ls, IsSingleLine line)
    (hlast : ∀ line ∈ ls.getLast?, line ≠ []) : lines (joinLines ls) = ls := by
  rcases List.eq_nil_or_concat' ls with rfl | ⟨before, last, rfl⟩
  · rfl
  · obtain ⟨hbefore, hsingle⟩ := List.forall_mem_append.1 h
    have hne : last ≠ [] := hlast last (by simp)
    rw [lines_joinLines_concat hbefore, lines_eq_singleton (hsingle last List.mem_cons_self) hne]

/-- What is in a line stands in the text in the same order. -/
theorem sublist_of_mem_lines {s line : List Char} (h : line ∈ lines s) : line.Sublist s := by
  fun_induction lines s generalizing line with
  | case1 => cases h
  | case2 r ih =>
    rcases List.mem_cons.1 h with rfl | h
    · exact List.nil_sublist _
    · exact ((ih h).cons '\n').cons '\r'
  | case3 c r _ _ ih =>
    rcases List.mem_cons.1 h with rfl | h
    · exact List.nil_sublist _
    · exact (ih h).cons c
  | case4 c r =>
    rw [List.mem_singleton.1 h]
    exact (List.nil_sublist r).cons_cons c
  | case5 c r _ _ first rest hr ih =>
    rcases List.mem_cons.1 h with rfl | h
    · exact (ih (hr ▸ List.mem_cons_self)).cons_cons c
    · exact (ih (hr ▸ List.mem_cons_of_mem first h)).cons c

/-- What does not break lines is in a line. -/
theorem exists_mem_lines {s : List Char} {c : Char} (h : c ∈ s) (hc : isLineBreak c = false) :
    ∃ line ∈ lines s, c ∈ line := by
  fun_induction lines s with
  | case1 => cases h
  | case2 r ih =>
    have hr : c ∈ r := by
      rcases List.mem_cons.1 h with rfl | h
      · cases hc
      · refine (List.mem_cons.1 h).resolve_left ?_
        rintro rfl
        cases hc
    obtain ⟨line, hline, hmem⟩ := ih hr
    exact ⟨line, List.mem_cons_of_mem _ hline, hmem⟩
  | case3 d r _ hd ih =>
    have hr : c ∈ r := (List.mem_cons.1 h).resolve_left fun heq => by
      rw [heq, hd] at hc
      cases hc
    obtain ⟨line, hline, hmem⟩ := ih hr
    exact ⟨line, List.mem_cons_of_mem _ hline, hmem⟩
  | case4 d r _ _ hr ih =>
    refine ⟨[d], List.mem_cons_self, List.mem_singleton.2 ((List.mem_cons.1 h).resolve_right fun hmem => ?_)⟩
    obtain ⟨line, hline, -⟩ := ih hmem
    rw [hr] at hline
    cases hline
  | case5 d r _ _ first rest hr ih =>
    rcases List.mem_cons.1 h with rfl | h
    · exact ⟨_, List.mem_cons_self, List.mem_cons_self⟩
    · obtain ⟨line, hline, hmem⟩ := ih h
      rw [hr] at hline
      rcases List.mem_cons.1 hline with rfl | hline
      · exact ⟨_, List.mem_cons_self, List.mem_cons_of_mem d hmem⟩
      · exact ⟨line, List.mem_cons_of_mem _ hline, hmem⟩

/-! ## Lines that line feeds end -/

theorem feedLines_append (s t : List Char) : feedLines (s ++ '\n' :: t) = feedLines s ++ feedLines t := by
  simp only [feedLines, splitOn_eq_splitOnP]
  exact List.splitOnP_append_cons s t rfl

/-- The lines of lines that are joined are those of each of them. -/
theorem feedLines_joinLines {ls : List (List Char)} (h : ls ≠ []) :
    feedLines (joinLines ls) = ls.flatMap feedLines := by
  induction ls with
  | nil => exact absurd rfl h
  | cons line ls ih =>
    cases ls with
    | nil => simp [joinLines]
    | cons second rest =>
      have hrest := ih (List.cons_ne_nil _ _)
      rw [List.flatMap_cons, ← hrest, joinLines, joinLines, List.intercalate_cons_cons, List.append_assoc]
      exact feedLines_append line _

theorem feedLines_eq_singleton {s : List Char} (h : '\n' ∉ s) : feedLines s = [s] := by
  rw [feedLines, splitOn_eq_splitOnP, List.splitOnP_eq_singleton]
  intro c hc
  simpa using fun heq : c = '\n' => h (heq ▸ hc)

theorem feedLines_joinLines_of_not_mem {ls : List (List Char)} (hne : ls ≠ []) (h : ∀ line ∈ ls, '\n' ∉ line) :
    feedLines (joinLines ls) = ls := by
  rw [feedLines_joinLines hne, List.flatMap_congr fun line hline => feedLines_eq_singleton (h line hline)]
  exact List.flatMap_singleton' ls

theorem feedLines_cons {c : Char} (h : c ≠ '\n') {s first : List Char} {rest : List (List Char)}
    (hs : feedLines s = first :: rest) : feedLines (c :: s) = (c :: first) :: rest := by
  rw [feedLines, splitOn, ← feedLines, hs, if_neg (by simpa using h)]

theorem feedLines_append_left {s : List Char} (h : '\n' ∉ s) {t first : List Char} {rest : List (List Char)}
    (ht : feedLines t = first :: rest) : feedLines (s ++ t) = (s ++ first) :: rest := by
  induction s with
  | nil => exact ht
  | cons c s ih =>
    rw [List.mem_cons, not_or] at h
    exact feedLines_cons (Ne.symm h.1) (ih h.2)

theorem exists_feedLines_eq_cons (s : List Char) : ∃ first rest, feedLines s = first :: rest := by
  rw [feedLines, splitOn_eq_splitOnP]
  exact List.exists_cons_of_ne_nil (List.splitOnP_ne_nil _ _)

/-- What holds no line feed stands at the beginning of a text if it does so in its first line. -/
theorem prefix_iff_feedLines {pattern : List Char} (hpattern : '\n' ∉ pattern) {s first : List Char}
    {rest : List (List Char)} (hs : feedLines s = first :: rest) : pattern <+: s ↔ pattern <+: first := by
  induction pattern generalizing s first rest with
  | nil => simp
  | cons c pattern ih =>
    rw [List.mem_cons, not_or] at hpattern
    cases s with
    | nil =>
      obtain rfl : [] = first := (List.cons.inj hs).1
      rfl
    | cons d s =>
      obtain ⟨more, others, hmore⟩ := exists_feedLines_eq_cons s
      by_cases hd : d = '\n'
      · subst hd
        obtain rfl : [] = first := (List.cons.inj (hs.symm.trans (feedLines_append [] s))).1.symm
        simp [List.cons_prefix_cons, Ne.symm hpattern.1]
      · obtain rfl : d :: more = first := (List.cons.inj ((feedLines_cons hd hmore).symm.trans hs)).1
        rw [List.cons_prefix_cons, List.cons_prefix_cons, ih hpattern.2 hmore]

/-- What holds no line feed occurs in a text if it occurs in a line of it. -/
theorem infix_iff_feedLines {pattern : List Char} (hne : pattern ≠ []) (hpattern : '\n' ∉ pattern)
    (s : List Char) : pattern <:+: s ↔ ∃ line ∈ feedLines s, pattern <:+: line := by
  induction s with
  | nil => simp [feedLines, splitOn]
  | cons c s ih =>
    obtain ⟨first, rest, hs⟩ := exists_feedLines_eq_cons s
    by_cases hc : c = '\n'
    · subst hc
      have hlines : feedLines ('\n' :: s) = [] :: feedLines s := feedLines_append [] s
      have hstart := prefix_iff_feedLines hpattern hlines
      rw [List.infix_cons_iff, ih, hstart, hlines]
      simp [hne]
    · have hlines := feedLines_cons hc hs
      have hstart := prefix_iff_feedLines hpattern hlines
      rw [List.infix_cons_iff, ih, hstart, hlines, hs]
      simp only [List.mem_cons, exists_eq_or_imp, List.infix_cons_iff, or_assoc]

end TypeBridge.Text
