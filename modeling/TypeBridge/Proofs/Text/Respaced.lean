import TypeBridge.Proofs.Text.Line
import TypeBridge.Proofs.Text.Trim

/-!
# Other blanks

When a text is divided into lines and these are trimmed and joined again, nothing changes but its blanks: some are
left out and others become line feeds. None is put between characters that stood next to each other.

Results:
* `Respaced.trans`, `Respaced.append`: the relation between such texts.
* `Respaced.filter_eq`, `Respaced.mem_iff`: what both texts have in common.
* `respaced_textLines`: the lines of a text.
-/
namespace TypeBridge.Text

/-- What it means that of two texts the second one is the first one with blanks left out or replaced by others. -/
inductive Respaced : List Char → List Char → Prop
  | nil : Respaced [] []
  | keep {s t : List Char} (c : Char) : Respaced s t → Respaced (c :: s) (c :: t)
  | drop {s t : List Char} {c : Char} : isBlank c = true → Respaced s t → Respaced (c :: s) t
  | replace {s t : List Char} {c d : Char} : isBlank c = true → isBlank d = true → Respaced s t →
    Respaced (c :: s) (d :: t)

namespace Respaced

theorem refl (s : List Char) : Respaced s s := by
  induction s with
  | nil => exact .nil
  | cons c s ih => exact .keep c ih

theorem append {s t s' t' : List Char} (h : Respaced s t) (h' : Respaced s' t') : Respaced (s ++ s') (t ++ t') := by
  induction h with
  | nil => exact h'
  | keep c _ ih => exact .keep c ih
  | drop hc _ ih => exact .drop hc ih
  | replace hc hd _ ih => exact .replace hc hd ih

theorem of_blank {s : List Char} (h : isBlankText s = true) : Respaced s [] := by
  induction s with
  | nil => exact .nil
  | cons c s ih =>
    rw [isBlankText, List.all_cons, Bool.and_eq_true] at h
    exact .drop h.1 (ih h.2)

theorem trans {s t u : List Char} (h : Respaced s t) (h' : Respaced t u) : Respaced s u := by
  induction h generalizing u with
  | nil => exact h'
  | keep c _ ih =>
    cases h' with
    | keep _ h' => exact .keep c (ih h')
    | drop hc h' => exact .drop hc (ih h')
    | replace hc hd h' => exact .replace hc hd (ih h')
  | drop hc _ ih => exact .drop hc (ih h')
  | replace hc hd _ ih =>
    cases h' with
    | keep _ h' => exact .replace hc hd (ih h')
    | drop _ h' => exact .drop hc (ih h')
    | replace _ he h' => exact .replace hc he (ih h')

/-- The characters that are not blank are the same. -/
theorem filter_eq {s t : List Char} (h : Respaced s t) : t.filter (!isBlank ·) = s.filter (!isBlank ·) := by
  induction h with
  | nil => rfl
  | keep c _ ih => rw [List.filter_cons, List.filter_cons, ih]
  | drop hc _ ih => rw [List.filter_cons_of_neg (by simp [hc]), ih]
  | replace hc hd _ ih => rw [List.filter_cons_of_neg (by simp [hd]), List.filter_cons_of_neg (by simp [hc]), ih]

theorem mem_iff {s t : List Char} (h : Respaced s t) {c : Char} (hc : isBlank c = false) : c ∈ t ↔ c ∈ s := by
  have hfilter (u : List Char) : c ∈ u.filter (!isBlank ·) ↔ c ∈ u := by simp [hc]
  rw [← hfilter t, ← hfilter s, h.filter_eq]

/-- A text that begins with a character that is not blank still does so. -/
theorem cons {c : Char} (hc : isBlank c = false) {s t : List Char} (h : Respaced (c :: s) t) :
    ∃ r, t = c :: r ∧ Respaced s r := by
  cases h with
  | keep _ h => exact ⟨_, rfl, h⟩
  | drop hblank _ =>
    rw [hc] at hblank
    cases hblank
  | replace hblank _ _ =>
    rw [hc] at hblank
    cases hblank

end Respaced

/-! ## Lines -/

theorem isBlank_of_isLineBreak {c : Char} (h : isLineBreak c = true) : isBlank c = true := by
  simp only [isLineBreak, Bool.or_eq_true, Bool.and_eq_true, decide_eq_true_eq, beq_iff_eq] at h
  simp only [isBlank, Bool.or_eq_true, Bool.and_eq_true, decide_eq_true_eq, beq_iff_eq]
  omega

/-- The line break after a line becomes a line feed, or is left out when no line follows. -/
theorem respaced_break {s : List Char} {c : Char} (hc : isBlank c = true) {ls : List (List Char)}
    (h : Respaced s (joinLines ls)) : Respaced (c :: s) (joinLines ([] :: ls)) := by
  by_cases hls : ls = []
  · subst hls
    exact .drop hc h
  · rw [joinLines_cons [] hls]
    exact .replace hc rfl h

theorem respaced_lines (s : List Char) : Respaced s (joinLines (lines s)) := by
  fun_induction lines s with
  | case1 => exact .nil
  | case2 r ih => exact .drop rfl (respaced_break rfl ih)
  | case3 c r _ hc ih => exact respaced_break (isBlank_of_isLineBreak hc) ih
  | case4 c r _ _ hr ih =>
    rw [hr] at ih
    exact .keep c ih
  | case5 c r _ _ line rest hr ih =>
    rw [hr] at ih
    exact joinLines_append [c] line rest ▸ .keep c ih

theorem respaced_trim (s : List Char) : Respaced s (trim s) := by
  obtain ⟨before, after, hs, hbefore, hafter⟩ := exists_trimEdges isBlank s
  have hparts := ((Respaced.of_blank (List.all_eq_true.2 hbefore)).append (.refl (trimEdges isBlank s))).append
    (.of_blank (List.all_eq_true.2 hafter))
  rwa [← hs, List.nil_append, List.append_nil] at hparts

theorem respaced_map {f : List Char → List Char} (h : ∀ line, Respaced line (f line)) (ls : List (List Char)) :
    Respaced (joinLines ls) (joinLines (ls.map f)) := by
  induction ls with
  | nil => exact .nil
  | cons line ls ih =>
    by_cases hls : ls = []
    · subst hls
      simpa [joinLines] using h line
    · rw [List.map_cons, joinLines_cons line hls, joinLines_cons (f line) (by simpa using hls)]
      exact (h line).append (.keep '\n' ih)

theorem respaced_dropBefore {before : List (List Char)} (h : ∀ line ∈ before, isBlankText line = true)
    (ls : List (List Char)) : Respaced (joinLines (before ++ ls)) (joinLines ls) := by
  induction before with
  | nil => exact .refl _
  | cons line before ih =>
    obtain ⟨hline, hbefore⟩ := List.forall_mem_cons.1 h
    by_cases hrest : before ++ ls = []
    · obtain ⟨rfl, rfl⟩ := List.append_eq_nil_iff.1 hrest
      simpa [joinLines] using Respaced.of_blank hline
    · rw [List.cons_append, joinLines_cons line hrest]
      exact (Respaced.of_blank hline).append (.drop rfl (ih hbefore))

theorem respaced_dropAfter {after : List (List Char)} (h : ∀ line ∈ after, isBlankText line = true)
    (ls : List (List Char)) : Respaced (joinLines (ls ++ after)) (joinLines ls) := by
  induction after using List.reverseRecOn with
  | nil =>
    rw [List.append_nil]
    exact .refl _
  | append_singleton after line ih =>
    obtain ⟨hafter, hline⟩ := List.forall_mem_append.1 h
    have hblank := Respaced.of_blank (hline line List.mem_cons_self)
    rw [← List.append_assoc]
    by_cases hrest : ls ++ after = []
    · obtain ⟨rfl, rfl⟩ := List.append_eq_nil_iff.1 hrest
      simpa [joinLines] using hblank
    · rw [joinLines_concat hrest]
      have hparts := (ih hafter).append (.drop (c := '\n') rfl hblank)
      rwa [List.append_nil] at hparts

theorem respaced_trimBlankLines (ls : List (List Char)) : Respaced (joinLines ls) (joinLines (trimBlankLines ls)) := by
  obtain ⟨before, after, hls, hbefore, hafter⟩ := exists_trimEdges isBlankText ls
  have hparts := (respaced_dropAfter hafter (before ++ trimEdges isBlankText ls)).trans
    (respaced_dropBefore hbefore (trimEdges isBlankText ls))
  rwa [← hls] at hparts

/-- The lines of a text, trimmed, and without the blank ones at the beginning and at the end. -/
def textLines (s : List Char) : List (List Char) := trimBlankLines ((lines s).map trim)

theorem respaced_textLines (s : List Char) : Respaced s (joinLines (textLines s)) :=
  (respaced_lines s).trans ((respaced_map respaced_trim _).trans (respaced_trimBlankLines _))

end TypeBridge.Text
