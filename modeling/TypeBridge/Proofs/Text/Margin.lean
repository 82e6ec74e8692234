import TypeBridge.Proofs.Text.Line
import TypeBridge.Proofs.Text.Trim

/-!
# The margin of lines

The margin of lines is the longest indentation that all of them share that are not blank. It is found by folding the
indentations of the lines, and the one fact about the fold is that what all of them begin with is what the result
begins with.

Results:
* `prefix_commonStart_iff`, `prefix_foldl_commonStart_iff`: the common beginning of two texts and of all indentations.
* `isMargin_margin?`, `exists_isMargin`, `IsMargin.unique`: there is one margin, and it is the one that is found.
* `removeMargin_joinLines`: what is left of lines without it.
* `IsMargin.reindent`: the margin of lines that are indented further.
-/
namespace TypeBridge.Text

/-! ## Indentations -/

/-- What it means that a text is made of spaces and tabs. -/
def IsIndentation (s : List Char) : Prop := ∀ c ∈ s, isIndent c = true

instance : DecidablePred IsIndentation := List.decidableBAll _

theorem isBlank_of_isIndent {c : Char} (h : isIndent c = true) : isBlank c = true := by
  rw [isIndent, Bool.or_eq_true, beq_iff_eq, beq_iff_eq] at h
  rcases h with rfl | rfl <;> rfl

theorem IsIndentation.isBlankText_append {m : List Char} (h : IsIndentation m) (s : List Char) :
    isBlankText (m ++ s) = isBlankText s := by
  have hm : m.all isBlank = true := List.all_eq_true.2 fun c hc => isBlank_of_isIndent (h c hc)
  rw [isBlankText, List.all_append, hm, Bool.true_and, isBlankText]

/-- A line that is not blank keeps its indentation when blanks are trimmed at its end. -/
theorem prefix_trimEnd_iff {m line : List Char} (hm : IsIndentation m) (h : isBlankText line = false) :
    m <+: trimEnd line ↔ m <+: line := by
  refine ⟨fun hstart => hstart.trans (prefix_trimEnd line), ?_⟩
  rintro ⟨rest, rfl⟩
  rw [hm.isBlankText_append] at h
  exact trimEnd_append h m ▸ List.prefix_append m _

/-! ## Common beginnings -/

theorem prefix_commonStart_iff {m s t : List Char} : m <+: commonStart s t ↔ m <+: s ∧ m <+: t := by
  fun_induction commonStart s t generalizing m with
  | case1 s c t ih =>
    cases m with
    | nil => simp
    | cons d m =>
      simp only [List.cons_prefix_cons, ih]
      tauto
  | case2 c s d t hne =>
    cases m with
    | nil => simp
    | cons e m =>
      simp only [List.prefix_nil, List.cons_ne_nil, List.cons_prefix_cons, false_iff]
      rintro ⟨⟨rfl, -⟩, rfl, -⟩
      exact hne rfl
  | case3 s t hne =>
    cases s with
    | nil => simp_all
    | cons c s =>
      cases t with
      | nil => simp_all
      | cons d t => exact absurd rfl (hne c s d t rfl)

theorem prefix_foldl_commonStart_iff {m first : List Char} {rest : List (List Char)} :
    m <+: rest.foldl commonStart first ↔ ∀ s ∈ first :: rest, m <+: s := by
  induction rest generalizing first with
  | nil => simp
  | cons second rest ih =>
    rw [List.foldl_cons, ih]
    simp only [List.forall_mem_cons, prefix_commonStart_iff, and_assoc]

/-! ## The margin -/

/-- What it means that all lines that are not blank share an indentation. -/
structure SharedIndent (ls : List (List Char)) (m : List Char) : Prop where
  isIndentation : IsIndentation m
  starts : ∀ line ∈ ls, isBlankText line = false → m <+: line

/-- What it means that an indentation is the longest one that all lines share that are not blank. -/
structure IsMargin (ls : List (List Char)) (m : List Char) : Prop where
  shared : SharedIndent ls m
  longest : ∀ other, SharedIndent ls other → other <+: m

theorem IsMargin.unique {ls : List (List Char)} {m other : List Char} (h : IsMargin ls m)
    (hother : IsMargin ls other) : m = other :=
  have hstart := hother.longest m h.shared
  hstart.eq_of_length (hstart.length_le.antisymm (h.longest other hother.shared).length_le)

theorem prefix_takeWhile_isIndent_iff {m line : List Char} :
    m <+: line.takeWhile isIndent ↔ IsIndentation m ∧ m <+: line := by
  constructor
  · intro h
    exact ⟨fun c hc => List.mem_takeWhile_imp (h.subset hc), h.trans (List.takeWhile_prefix isIndent)⟩
  · rintro ⟨hm, rest, rfl⟩
    rw [List.takeWhile_append_of_pos hm]
    exact List.prefix_append m _

theorem margin?_eq_foldl {ls : List (List Char)} {first : List Char} {rest : List (List Char)}
    (h : (ls.filter (!·.isEmpty)).map (·.takeWhile isIndent) = first :: rest) :
    margin? ls = some (rest.foldl commonStart first) := by
  rw [margin?, h, List.foldl_cons]
  simp only [Option.map_none, Option.getD_none]
  generalize first = margin
  clear h
  induction rest generalizing margin with
  | nil => rfl
  | cons indent rest ih => exact ih (commonStart margin indent)

/-- Of lines that are empty if they are blank, the margin is the one that is found, if they are not all empty. -/
theorem isMargin_margin? {ls : List (List Char)} (hblank : ∀ line ∈ ls, isBlankText line = true → line = [])
    (hne : ∃ line ∈ ls, isBlankText line = false) : ∃ m, margin? ls = some m ∧ IsMargin ls m := by
  have hmem (line : List Char) : line ∈ ls.filter (!·.isEmpty) ↔ line ∈ ls ∧ isBlankText line = false := by
    rw [List.mem_filter, and_congr_right_iff]
    intro hline
    cases line with
    | nil => simp [isBlankText]
    | cons c line =>
      have hfalse := mt (hblank (c :: line) hline) (List.cons_ne_nil c line)
      simpa using hfalse
  obtain ⟨line, hline⟩ := hne
  obtain ⟨first, rest, hfirst⟩ := List.exists_cons_of_ne_nil (List.ne_nil_of_mem ((hmem line).2 hline))
  have hindents : (ls.filter (!·.isEmpty)).map (·.takeWhile isIndent) =
      first.takeWhile isIndent :: rest.map (·.takeWhile isIndent) := by rw [hfirst, List.map_cons]
  have hiff (m : List Char) :
      m <+: (rest.map (·.takeWhile isIndent)).foldl commonStart (first.takeWhile isIndent) ↔ SharedIndent ls m := by
    rw [prefix_foldl_commonStart_iff, ← hindents, List.forall_mem_map]
    simp only [prefix_takeWhile_isIndent_iff, hmem]
    exact ⟨fun h => ⟨(h line hline).1, fun other ho hb => (h other ⟨ho, hb⟩).2⟩,
      fun h other ho => ⟨h.isIndentation, h.starts other ho.1 ho.2⟩⟩
  exact ⟨_, margin?_eq_foldl hindents, (hiff _).1 List.prefix_rfl, fun other => (hiff other).2⟩

theorem dropMargin_append (m rest : List Char) : dropMargin m (m ++ rest) = rest := by
  rw [dropMargin, dropStart?_append, Option.getD_some]

theorem dropMargin_nil (m : List Char) : dropMargin m [] = [] := by
  cases m <;> rfl

/-- A line without the margin; a line that is blank becomes empty. -/
def outdent (m line : List Char) : List Char := if isBlankText line then [] else line.drop m.length

/-- Lines that are empty if they are blank lose their margin. -/
theorem removeMargin_joinLines {ls : List (List Char)} {m : List Char} (hfeed : ∀ line ∈ ls, '\n' ∉ line)
    (hblank : ∀ line ∈ ls, isBlankText line = true → line = []) (hne : ∃ line ∈ ls, isBlankText line = false)
    (hm : IsMargin ls m) : removeMargin (joinLines ls) = joinLines (ls.map (outdent m)) := by
  obtain ⟨found, hfound, hmargin⟩ := isMargin_margin? hblank hne
  obtain rfl := hm.unique hmargin
  have hlines : (feedLines (joinLines ls)).map (fun line => if line.all isIndent then [] else line) = ls := by
    rw [feedLines_joinLines_of_not_mem (List.ne_nil_of_mem hne.choose_spec.1) hfeed]
    refine (List.map_congr_left fun line hline => ?_).trans (List.map_id ls)
    split
    · rename_i hindent
      have hall : isBlankText line = true :=
        List.all_eq_true.2 fun c hc => isBlank_of_isIndent (List.all_eq_true.1 hindent c hc)
      exact (hblank line hline hall).symm
    · rfl
  rw [removeMargin, hlines, hfound, Option.getD_some]
  refine congrArg joinLines (List.map_congr_left fun line hline => ?_)
  unfold outdent
  split
  · rename_i h
    rw [hblank line hline h, dropMargin_nil]
  · rename_i h
    obtain ⟨rest, rfl⟩ := hm.shared.starts line hline (Bool.eq_false_iff.2 h)
    rw [dropMargin_append, List.drop_left]

/-! ## Lines without blanks at their ends -/

/-- Lines without the blanks at their ends, and without the blank lines at the beginning and at the end. -/
def trimLines (ls : List (List Char)) : List (List Char) := trimBlankLines (ls.map trimEnd)

theorem exists_of_mem_trimLines {ls : List (List Char)} {line : List Char} (h : line ∈ trimLines ls) :
    ∃ whole ∈ ls, trimEnd whole = line :=
  List.mem_map.1 ((sublist_trimEdges _ _).subset h)

theorem eq_nil_of_mem_trimLines {ls : List (List Char)} {line : List Char} (h : line ∈ trimLines ls)
    (hblank : isBlankText line = true) : line = [] := by
  obtain ⟨whole, -, rfl⟩ := exists_of_mem_trimLines h
  rwa [isBlankText_trimEnd, ← trimEnd_eq_nil_iff] at hblank

/-- Every line that is not blank is left. -/
theorem trimEnd_mem_trimLines {ls : List (List Char)} {line : List Char} (h : line ∈ ls)
    (hblank : isBlankText line = false) : trimEnd line ∈ trimLines ls := by
  have hkept := congrArg (trimEnd line ∈ ·) (filter_trimEdges isBlankText (ls.map trimEnd))
  simp only [List.mem_filter, isBlankText_trimEnd, hblank, Bool.not_false, and_true] at hkept
  exact hkept.mpr (List.mem_map_of_mem h)

theorem trimLines_eq_nil_iff {ls : List (List Char)} : trimLines ls = [] ↔ ∀ line ∈ ls, isBlankText line = true := by
  rw [trimLines, trimBlankLines_eq_trimEdges, trimEdges_eq_nil_iff, List.forall_mem_map]
  simp only [isBlankText_trimEnd]

theorem sharedIndent_trimLines_iff {ls : List (List Char)} {m : List Char} :
    SharedIndent (trimLines ls) m ↔ SharedIndent ls m := by
  constructor
  · intro h
    refine ⟨h.isIndentation, fun line hline hblank => ?_⟩
    have hstart := h.starts (trimEnd line) (trimEnd_mem_trimLines hline hblank)
      ((isBlankText_trimEnd line).trans hblank)
    exact (prefix_trimEnd_iff h.isIndentation hblank).1 hstart
  · intro h
    refine ⟨h.isIndentation, fun line hline hblank => ?_⟩
    obtain ⟨whole, hwhole, rfl⟩ := exists_of_mem_trimLines hline
    rw [isBlankText_trimEnd] at hblank
    exact (prefix_trimEnd_iff h.isIndentation hblank).2 (h.starts whole hwhole hblank)

theorem isMargin_trimLines_iff {ls : List (List Char)} {m : List Char} : IsMargin (trimLines ls) m ↔ IsMargin ls m :=
  ⟨fun h => ⟨sharedIndent_trimLines_iff.1 h.shared, fun other ho => h.longest other (sharedIndent_trimLines_iff.2 ho)⟩,
    fun h => ⟨sharedIndent_trimLines_iff.2 h.shared, fun other ho => h.longest other (sharedIndent_trimLines_iff.1 ho)⟩⟩

theorem exists_mem_trimLines {ls : List (List Char)} (h : ∃ line ∈ ls, isBlankText line = false) :
    ∃ line ∈ trimLines ls, isBlankText line = false := by
  obtain ⟨line, hline, hblank⟩ := h
  exact ⟨trimEnd line, trimEnd_mem_trimLines hline hblank, (isBlankText_trimEnd line).trans hblank⟩

/-- Lines that are not all blank have a margin. -/
theorem exists_isMargin {ls : List (List Char)} (h : ∃ line ∈ ls, isBlankText line = false) : ∃ m, IsMargin ls m := by
  obtain ⟨m, -, hm⟩ := isMargin_margin? (fun line => eq_nil_of_mem_trimLines) (exists_mem_trimLines h)
  exact ⟨m, isMargin_trimLines_iff.1 hm⟩

/-! ## Further indentation -/

/-- Indented further by the same text, lines have a margin that is longer by that text. -/
theorem IsMargin.reindent {ls : List (List Char)} {m : List Char} (h : IsMargin ls m)
    (hne : ∃ line ∈ ls, isBlankText line = false) {p : List Char} (hp : IsIndentation p) :
    IsMargin (ls.map (p ++ ·)) (p ++ m) := by
  have hstarts (other : List Char) : SharedIndent (ls.map (p ++ ·)) (p ++ other) ↔ SharedIndent ls other := by
    constructor
    · intro hother
      refine ⟨fun c hc => hother.isIndentation c (List.mem_append_right p hc), fun line hline hblank => ?_⟩
      exact (List.prefix_append_right_inj p).1
        (hother.starts (p ++ line) (List.mem_map_of_mem hline) ((hp.isBlankText_append line).trans hblank))
    · intro hother
      refine ⟨fun c hc => (List.mem_append.1 hc).elim (hp c) (hother.isIndentation c), ?_⟩
      rw [List.forall_mem_map]
      intro line hline hblank
      exact (List.prefix_append_right_inj p).2
        (hother.starts line hline ((hp.isBlankText_append line).symm.trans hblank))
  refine ⟨(hstarts m).2 h.shared, fun other hother => ?_⟩
  obtain ⟨line, hline, hblank⟩ := hne
  have hother' : other <+: p ++ line :=
    hother.starts (p ++ line) (List.mem_map_of_mem hline) ((hp.isBlankText_append line).trans hblank)
  -- Another shared indentation is a part of the added text or runs over its end.
  rcases List.prefix_or_prefix_of_prefix hother' (List.prefix_append p line) with hpart | ⟨rest, rfl⟩
  · exact hpart.trans (List.prefix_append p m)
  · exact (List.prefix_append_right_inj p).2 (h.longest rest ((hstarts rest).1 hother))

end TypeBridge.Text
