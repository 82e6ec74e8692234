import TypeBridge.Proofs.Source.Declared
import TypeBridge.Proofs.Source.Lead

/-!
# The comments of a declaration

The comments of a declaration are those directly before it that begin below the last line with text of what is before
them. What is kept are all of them but the first one when that is not marked. So one comment too many is left out when a
directive stands right before them, which has taken the line feed, and too few are when two of them begin on the last
line with text.

Results:
* `keptComments_eq_drop`, `filter_eq_drop`: how many comments are left out, and how many should be.
* `comments_eq_iff`: when they are the same, by what stands before a declaration.
* `comments_own_iff`: the comments of all declarations of a source.
-/
namespace TypeBridge.Source

/-! ## Lines -/

/-- The number of line feeds in a text, which is also the number of the line that its end is on. -/
def feeds (s : List Char) : Nat := s.count '\n'

/-- The comments among some pieces, each with the number of the line that it begins on, when the first piece begins on
the given line. -/
def commentLines : Nat → List Trivia → List (String × Nat)
  | _, [] => []
  | line, .comment text _ :: rest => (text, line) :: commentLines (line + feeds text.toList) rest
  | line, piece :: rest => commentLines (line + feeds piece.text.toList) rest

/-- The text up to the comments right before a token that stands after some text: up to the last directive before it. -/
def upToRun (first : List Char) (lead : List Trivia) : List Char :=
  first ++ (lead.rdropWhile (!·.isDirective)).flatMap (·.text.toList)

/-- The pieces right before a token, after the last directive before it. -/
def runOf (lead : List Trivia) : List Trivia := lead.rtakeWhile (!·.isDirective)

/-- Whether a line is below all lines with text. -/
def isBelow (before : List Char) (line : Nat) : Bool := before.isEmpty || feeds (Text.trimEnd before) < line

/-- The comments right before a token that begin below the last line with text of what is before them. -/
def ownComments (before : List Char) (run : List Trivia) : List String :=
  ((commentLines (feeds before) run).filter (isBelow before ·.2)).map fun (text, _) =>
    .ofList (Text.trim text.toList)

/-- The comments right before a token that begin on the last line with text of what is before them. -/
def trailingComments (before : List Char) (run : List Trivia) : List (String × Nat) :=
  (commentLines (feeds before) run).filter (!isBelow before ·.2)

section Lines

variable {run : List Trivia} {line : Nat}

theorem le_of_mem_commentLines {comment : String × Nat} (h : comment ∈ commentLines line run) : line ≤ comment.2 := by
  induction run generalizing line with
  | nil => cases h
  | cons piece run ih =>
    cases piece with
    | comment text mark =>
      rcases List.mem_cons.1 h with rfl | h
      · exact Nat.le_refl _
      · exact (Nat.le_add_right _ _).trans (ih h)
    | blank text => exact (Nat.le_add_right _ _).trans (ih h)
    | directive text => exact (Nat.le_add_right _ _).trans (ih h)

theorem pairwise_commentLines (line : Nat) (run : List Trivia) :
    (commentLines line run).Pairwise fun comment other => comment.2 ≤ other.2 := by
  induction run generalizing line with
  | nil => exact .nil
  | cons piece run ih =>
    cases piece with
    | comment text mark =>
      refine List.pairwise_cons.2 ⟨fun other hother => ?_, ih _⟩
      exact (Nat.le_add_right _ _).trans (le_of_mem_commentLines hother)
    | blank text => exact ih _
    | directive text => exact ih _

end Lines

/-- When what satisfies `p` comes after all that does not, only what does not is dropped. -/
theorem filter_eq_drop {α : Type} {p : α → Bool} {l : List α} (h : l.Pairwise fun a b => p a = true → p b = true) :
    l.filter p = l.drop (l.filter (!p ·)).length := by
  induction l with
  | nil => rfl
  | cons a l ih =>
    obtain ⟨ha, hl⟩ := List.pairwise_cons.1 h
    by_cases hp : p a = true
    · have hall : ∀ b ∈ l, p b = true := fun b hb => ha b hb hp
      have hnone : l.filter (!p ·) = [] := List.filter_eq_nil_iff.2 fun b hb => by simp [hall b hb]
      simp [hp, hnone, List.filter_eq_self.2 hall]
    · simp [hp, ih hl]

/-! ## What is kept -/

/-- The number of comments that are left out: the first one, when it begins on the line on which the pieces begin, and
something is before them. -/
def leftOut (own : Bool) (line : Nat) (comments : List (String × Nat)) : Nat :=
  if !own && comments.head?.any (·.2 == line) then 1 else 0

/-- The comments among some pieces with what they are marked with. -/
def markedComments (run : List Trivia) : List (String × Bool) :=
  run.filterMap fun
    | .comment text ownLine => some (text, ownLine)
    | _ => none

/-- Comments without the first one, if that is not marked. -/
def keptComments : List (String × Bool) → List (String × Bool)
  | (_, false) :: rest => rest
  | run => run

theorem comments_eq_kept (lead : List Trivia) :
    comments lead = (keptComments (markedComments (runOf lead))).map fun (text, _) =>
      .ofList (Text.trim text.toList) := by
  unfold comments Token.leadingComments
  change List.map _ (match markedComments (runOf lead) with
    | (_, false) :: rest => rest
    | run => run) = _
  unfold keptComments
  rfl

section Kept

variable {run : List Trivia}

theorem markedComments_eq_map (line : Nat) (hrun : ∀ piece ∈ run, piece.isDirective = false) :
    (markedComments run).map (·.1) = (commentLines line run).map (·.1) := by
  induction run generalizing line with
  | nil => rfl
  | cons piece run ih =>
    obtain ⟨hpiece, hrest⟩ := List.forall_mem_cons.1 hrun
    cases piece with
    | comment text mark => exact congrArg (text :: ·) (ih _ hrest)
    | blank text => exact ih _ hrest
    | directive text => cases hpiece

/-- After blanks, nothing but these precedes on the line when there is a line feed among them or it was so before. -/
theorem leftOut_blank (own : Bool) (line : Nat) (text : List Char) (run : List Trivia) :
    leftOut own line (commentLines (line + feeds text) run) =
      leftOut (own || text.contains '\n') (line + feeds text) (commentLines (line + feeds text) run) := by
  by_cases hfeed : '\n' ∈ text
  · have hpos : 0 < feeds text := List.count_pos_iff.2 hfeed
    have hnone : (commentLines (line + feeds text) run).head?.any (·.2 == line) = false := by
      cases hhead : (commentLines (line + feeds text) run).head? with
      | none => rfl
      | some comment =>
        have hle := le_of_mem_commentLines (List.mem_of_head? hhead)
        simp only [Option.any_some, beq_eq_false_iff_ne]
        omega
    simp [leftOut, hnone, hfeed]
  · have hzero : feeds text = 0 := List.count_eq_zero.2 hfeed
    simp [hzero, hfeed]

/-- All comments are kept but those that are left out. -/
theorem keptComments_eq_drop {own : Bool} (line : Nat) (hmarked : Trivia.Marked own run)
    (hrun : ∀ piece ∈ run, piece.isDirective = false) :
    (keptComments (markedComments run)).map (·.1) =
      ((commentLines line run).drop (leftOut own line (commentLines line run))).map (·.1) := by
  induction run generalizing own line with
  | nil => simp [markedComments, keptComments, commentLines]
  | cons piece run ih =>
    obtain ⟨hpiece, hrest⟩ := List.forall_mem_cons.1 hrun
    obtain ⟨hmark, hmarks⟩ := hmarked
    cases piece with
    | comment text mark =>
      obtain rfl := hmark text mark rfl
      have hsame := markedComments_eq_map (line + feeds text.toList) hrest
      cases mark with
      | true => exact congrArg (text :: ·) hsame
      | false =>
        have hone : leftOut false line (commentLines line (.comment text false :: run)) = 1 := by
          simp [leftOut, commentLines]
        rw [hone]
        exact hsame
    | blank text =>
      have hkept := ih (line + feeds text.toList) hmarks hrest
      rw [commentLines, leftOut_blank]
      · exact hkept
      · exact nofun
    | directive text => cases hpiece

end Kept

/-! ## What should be kept -/

/-- Comments do not go back to lines with text. -/
theorem isBelow_of_le {before : List Char} {line other : Nat} (h : isBelow before line = true) (hle : line ≤ other) :
    isBelow before other = true := by
  simp only [isBelow, Bool.or_eq_true, decide_eq_true_eq] at h ⊢
  exact h.imp_right fun hlt => hlt.trans_le hle

theorem ownComments_eq_drop (before : List Char) (run : List Trivia) :
    ownComments before run =
      (((commentLines (feeds before) run).drop (trailingComments before run).length).map (·.1)).map fun text =>
        .ofList (Text.trim text.toList) := by
  rw [ownComments, filter_eq_drop, List.map_map]
  · rfl
  · exact (pairwise_commentLines _ _).imp fun hle hbelow => isBelow_of_le hbelow hle

theorem length_trailingComments_le (before : List Char) (run : List Trivia) :
    (trailingComments before run).length ≤ (commentLines (feeds before) run).length :=
  List.length_filter_le _ _

theorem leftOut_le (own : Bool) (line : Nat) (comments : List (String × Nat)) :
    leftOut own line comments ≤ comments.length := by
  unfold leftOut
  split
  · rename_i h
    cases comments with
    | nil => simp at h
    | cons => simp
  · exact Nat.zero_le _

/-! ## What stands before the comments -/

theorem marked_append {first rest : List Trivia} {own : Bool} (h : Trivia.Marked own (first ++ rest)) :
    Trivia.Marked (first.foldl Trivia.ownAfter own) rest := by
  induction first generalizing own with
  | nil => exact h
  | cons piece first ih => exact ih h.2

theorem rdropWhile_append_runOf (lead : List Trivia) : lead.rdropWhile (!·.isDirective) ++ runOf lead = lead :=
  List.rdropWhile_append_rtakeWhile

theorem isDirective_of_mem_runOf {lead : List Trivia} {piece : Trivia} (h : piece ∈ runOf lead) :
    piece.isDirective = false := by
  simpa using List.mem_rtakeWhile_imp h

/-- When there is a directive, what is before the run of comments ends in one. -/
theorem exists_rdropWhile_eq {lead : List Trivia} (h : lead.rdropWhile (!·.isDirective) ≠ []) :
    ∃ first text, lead.rdropWhile (!·.isDirective) = first ++ [.directive text] := by
  have hlast := List.rdropWhile_last_not (!·.isDirective) lead h
  obtain ⟨piece, hpiece⟩ : ∃ piece, (lead.rdropWhile (!·.isDirective)).getLast h = piece := ⟨_, rfl⟩
  rw [hpiece] at hlast
  cases piece with
  | directive text => exact ⟨_, text, by rw [← hpiece, List.dropLast_append_getLast]⟩
  | blank text => exact absurd rfl hlast
  | comment text mark => exact absurd rfl hlast

theorem rdropWhile_ne_nil_iff (lead : List Trivia) :
    lead.rdropWhile (!·.isDirective) ≠ [] ↔ ∃ text, .directive text ∈ lead := by
  constructor
  · intro h
    obtain ⟨first, text, heq⟩ := exists_rdropWhile_eq h
    have hstart : lead.rdropWhile (!·.isDirective) <+: lead := List.rdropWhile_prefix _ lead
    exact ⟨text, hstart.subset (by rw [heq]; exact List.mem_append_right _ (List.mem_singleton_self _))⟩
  · rintro ⟨text, hmem⟩ hnil
    rw [List.rdropWhile_eq_nil_iff] at hnil
    exact absurd (hnil _ hmem) (by simp [Trivia.isDirective])

theorem commentLines_ne_nil_iff {run : List Trivia} (line : Nat) :
    commentLines line run ≠ [] ↔ ∃ text mark, .comment text mark ∈ run := by
  induction run generalizing line with
  | nil => simp [commentLines]
  | cons piece run ih =>
    cases piece with
    | comment text mark => exact iff_of_true (List.cons_ne_nil _ _) ⟨text, mark, List.mem_cons_self⟩
    | blank text => simpa [commentLines] using ih (line + feeds (Trivia.blank text).text.toList)
    | directive text => simpa [commentLines] using ih (line + feeds (Trivia.directive text).text.toList)

/-- The first comment after a directive begins right where the directive ends. -/
theorem head_commentLines_of_directive {run : List Trivia} {text : String}
    (hchain : (.directive text :: run).IsChain Trivia.IsApart) (hrun : ∀ piece ∈ run, piece.isDirective = false)
    (line : Nat) {comment : String × Nat} (h : (commentLines line run).head? = some comment) : comment.2 = line := by
  cases run with
  | nil => cases h
  | cons piece run =>
    obtain ⟨hpiece, hchain⟩ := List.isChain_cons_cons.1 hchain
    obtain ⟨hdirective, hrest⟩ := List.forall_mem_cons.1 hrun
    cases piece with
    | comment other mark => exact (congrArg Prod.snd (Option.some.inj h)).symm
    | directive other => cases hdirective
    | blank blanks =>
      have hzero : feeds blanks.toList = 0 := List.count_eq_zero.2 (hpiece.directive text blanks rfl rfl)
      cases run with
      | nil => cases h
      | cons next run =>
        obtain ⟨hnext, -⟩ := List.isChain_cons_cons.1 hchain
        obtain ⟨hdirective, -⟩ := List.forall_mem_cons.1 hrest
        cases next with
        | comment other mark =>
          have heq : (other, line + feeds blanks.toList) = comment := Option.some.inj h
          rw [← heq, hzero, Nat.add_zero]
        | directive other => cases hdirective
        | blank other => exact absurd rfl (hnext.blank blanks other rfl)

/-! ## One declaration -/

theorem feeds_append (s t : List Char) : feeds (s ++ t) = feeds s + feeds t := List.count_append

/-- After a line feed, what follows is below all lines with text. -/
theorem isBelow_of_getLast? {before : List Char} (h : before.getLast? = some '\n') {line : Nat}
    (hline : feeds before ≤ line) : isBelow before line = true := by
  obtain ⟨first, rfl⟩ := List.getLast?_eq_some_iff.1 h
  have htrim : feeds (Text.trimEnd (first ++ ['\n'])) ≤ feeds first := by
    have heq : Text.trimEnd (first ++ ['\n']) = first.rdropWhile Text.isBlank :=
      List.rdropWhile_concat_pos Text.isBlank first '\n' (by decide)
    rw [heq]
    exact (List.rdropWhile_prefix Text.isBlank first).sublist.count_le _
  rw [feeds_append] at hline
  have hone : feeds ['\n'] = 1 := by decide
  simp only [isBelow, Bool.or_eq_true, decide_eq_true_eq]
  omega

theorem drop_map_eq_iff {α β : Type} {f : α → β} {l : List α} {m n : Nat} (hm : m ≤ l.length) (hn : n ≤ l.length) :
    (l.drop m).map f = (l.drop n).map f ↔ m = n := by
  constructor
  · intro h
    have hlength := congrArg List.length h
    simp only [List.length_map, List.length_drop] at hlength
    omega
  · rintro rfl
    rfl

section OneLead

variable {own : Bool} {lead : List Trivia} {first : List Char}

/-- The comments are the right ones exactly when as many are left out as should be. -/
theorem comments_eq_own_iff (hlead : Trivia.IsLead own lead) (before : List Char) :
    comments lead = ownComments before (runOf lead) ↔
      leftOut ((lead.rdropWhile (!·.isDirective)).foldl Trivia.ownAfter own) (feeds before)
          (commentLines (feeds before) (runOf lead)) =
        (trailingComments before (runOf lead)).length := by
  have hmarked : Trivia.Marked ((lead.rdropWhile (!·.isDirective)).foldl Trivia.ownAfter own) (runOf lead) := by
    refine marked_append ?_
    rw [rdropWhile_append_runOf]
    exact hlead.marked
  have hrun : ∀ piece ∈ runOf lead, piece.isDirective = false := fun _ => isDirective_of_mem_runOf
  have hkept : comments lead =
      ((keptComments (markedComments (runOf lead))).map (·.1)).map fun text => .ofList (Text.trim text.toList) := by
    rw [comments_eq_kept, List.map_map]
    rfl
  rw [hkept, keptComments_eq_drop (feeds before) hmarked hrun, ownComments_eq_drop, List.map_map, List.map_map,
    drop_map_eq_iff (leftOut_le _ _ _) (length_trailingComments_le _ _)]

/-- A directive takes its line with its end, so all comments after it are below it. -/
theorem trailingComments_of_directive (hlead : Trivia.IsLead own lead) (h : lead.rdropWhile (!·.isDirective) ≠ []) :
    trailingComments (upToRun first lead) (runOf lead) = [] := by
  obtain ⟨init, text, heq⟩ := exists_rdropWhile_eq h
  have hmem : .directive text ∈ lead := by
    rw [← rdropWhile_append_runOf lead, heq]
    simp
  have hlast : (upToRun first lead).getLast? = some '\n' := by
    rw [upToRun, heq, List.flatMap_append, List.flatMap_singleton, List.getLast?_append, List.getLast?_append,
      Trivia.text, hlead.directive text hmem]
    rfl
  refine List.filter_eq_nil_iff.2 fun comment hcomment => ?_
  simp [isBelow_of_getLast? hlast (le_of_mem_commentLines hcomment)]

/-- After a directive, the first comment is left out, and none should be. -/
theorem leftOut_eq_iff_of_directive (hlead : Trivia.IsLead own lead) (h : lead.rdropWhile (!·.isDirective) ≠ []) :
    leftOut ((lead.rdropWhile (!·.isDirective)).foldl Trivia.ownAfter own) (feeds (upToRun first lead))
        (commentLines (feeds (upToRun first lead)) (runOf lead)) =
      (trailingComments (upToRun first lead) (runOf lead)).length ↔
    commentLines (feeds (upToRun first lead)) (runOf lead) = [] := by
  obtain ⟨init, text, heq⟩ := exists_rdropWhile_eq h
  have hown : (lead.rdropWhile (!·.isDirective)).foldl Trivia.ownAfter own = false := by
    rw [heq, List.foldl_append]
    rfl
  have hchain : (.directive text :: runOf lead).IsChain Trivia.IsApart := by
    have happart := hlead.apart
    rw [← rdropWhile_append_runOf lead, heq, List.append_assoc] at happart
    exact (List.isChain_append.1 happart).2.1
  rw [trailingComments_of_directive hlead h, hown, List.length_nil, leftOut]
  cases hcs : commentLines (feeds (upToRun first lead)) (runOf lead) with
  | nil => simp
  | cons comment rest =>
    have hline := head_commentLines_of_directive hchain (fun _ => isDirective_of_mem_runOf) _
      (congrArg List.head? hcs)
    simp [hline]

/-- When nothing is before the comments, all of them are below it. -/
theorem trailingComments_nil (run : List Trivia) : trailingComments [] run = [] :=
  List.filter_eq_nil_iff.2 fun comment _ => by simp [isBelow]

theorem leftOut_true (line : Nat) (comments : List (String × Nat)) : leftOut true line comments = 0 := by
  rw [leftOut]
  rfl

/-- After text, the first comment on its line is left out, and all of these should be. -/
theorem leftOut_eq_iff_of_text {before : List Char} (h : EndsInText before) (run : List Trivia) :
    leftOut false (feeds before) (commentLines (feeds before) run) = (trailingComments before run).length ↔
      (trailingComments before run).length ≤ 1 := by
  have hne : before.isEmpty = false := by
    obtain ⟨c, hc, -⟩ := h
    cases before with
    | nil => cases hc
    | cons => rfl
  have hbelow (line : Nat) : isBelow before line = decide (feeds before < line) := by
    rw [isBelow, hne, trimEnd_of_endsInText h, Bool.false_or]
  have hle : ∀ comment ∈ commentLines (feeds before) run, feeds before ≤ comment.2 := fun _ => le_of_mem_commentLines
  have hsorted := pairwise_commentLines (feeds before) run
  rw [trailingComments, leftOut]
  generalize commentLines (feeds before) run = cs at hle hsorted
  cases cs with
  | nil => simp
  | cons comment rest =>
    obtain ⟨hfirst, hrest⟩ := List.forall_mem_cons.1 hle
    by_cases heq : comment.2 = feeds before
    · simp only [List.head?_cons, Option.any_some, heq, beq_self_eq_true, Bool.not_false, Bool.and_true, if_true,
        List.filter_cons, hbelow, Nat.lt_irrefl, decide_false, List.length_cons]
      omega
    · have hall : ∀ other ∈ comment :: rest, isBelow before other.2 = true := by
        obtain ⟨hpair, -⟩ := List.pairwise_cons.1 hsorted
        refine List.forall_mem_cons.2 ⟨?_, fun other hother => ?_⟩
        · rw [hbelow, decide_eq_true_eq]
          omega
        · have := hpair other hother
          rw [hbelow, decide_eq_true_eq]
          omega
      have hnone : (comment :: rest).filter (!isBelow before ·.2) = [] :=
        List.filter_eq_nil_iff.2 fun other hother => by simp [hall other hother]
      simp [hnone, heq]

/-- The comments of what stands after some text are the right ones but in two cases: after a directive, the first one is
missing; and of two that begin on the last line with text, all but the first one are too many. -/
theorem comments_eq_iff (hlead : Trivia.IsLead own lead) (hown : own = first.isEmpty)
    (hfirst : first ≠ [] → EndsInText first) :
    comments lead = ownComments (upToRun first lead) (runOf lead) ↔
      ¬((∃ text, .directive text ∈ lead) ∧ ∃ text mark, .comment text mark ∈ runOf lead) ∧
        (trailingComments (upToRun first lead) (runOf lead)).length ≤ 1 := by
  rw [comments_eq_own_iff hlead, ← rdropWhile_ne_nil_iff,
    ← commentLines_ne_nil_iff (feeds (upToRun first lead))]
  by_cases hdirective : lead.rdropWhile (!·.isDirective) = []
  · have hbefore : upToRun first lead = first := by rw [upToRun, hdirective, List.flatMap_nil, List.append_nil]
    simp only [hdirective, List.foldl_nil, hbefore, ne_eq, not_true_eq_false, false_and, not_false_eq_true, true_and]
    by_cases hnil : first = []
    · subst hnil
      rw [hown, trailingComments_nil, List.isEmpty_nil, leftOut_true]
      exact iff_of_true rfl (Nat.zero_le 1)
    · rw [hown, List.isEmpty_eq_false_iff.2 hnil]
      exact leftOut_eq_iff_of_text (hfirst hnil) (runOf lead)
  · rw [leftOut_eq_iff_of_directive hlead hdirective, trailingComments_of_directive hlead hdirective]
    simp [hdirective]

end OneLead

/-! ## Sources -/

theorem exists_tokensAll_eq_cons {trees : List Tree} (h : trees ≠ []) :
    ∃ token rest, Tree.tokensAll trees = token :: rest ∧ token.lead = leadOf trees := by
  obtain ⟨tree, trees, rfl⟩ := List.exists_cons_of_ne_nil h
  cases tree with
  | leaf token => exact ⟨token, _, rfl, rfl⟩
  | group bracket opening body closing => exact ⟨opening, _, rfl, rfl⟩
  | conditional branches closing =>
    cases branches with
    | nil => exact ⟨closing, _, rfl, rfl⟩
    | cons branch branches => exact ⟨branch.1, _, rfl, rfl⟩

/-- What stands before a declaration is what stands before the first of its trees. -/
theorem Node.IsLaidOut.leadOf_eq {place : Place} {node : Node} (h : node.IsLaidOut place) {lead : List Trivia}
    {name : String} (hdeclared : node.item.declared? = some (lead, name)) : leadOf node.trees = lead := by
  cases h with
  | line => cases hdeclared
  | plain _ _ _ hbegins => exact (hbegins lead name hdeclared).1
  | @braced _ outside _ _ _ _ inner hbegins _ _ =>
    have hsame : (outside.item []).declared? = some (lead, name) := by
      rw [← hdeclared]
      cases outside <;> rfl
    obtain ⟨hlead, token, htoken, -⟩ := hbegins lead name hsame
    rw [Node.trees, leadOf_append (List.ne_nil_of_mem htoken), hlead]

/-- Where a declaration is in its source, and what is known of the pieces before it. -/
theorem IsSyntaxOf.exists_toList_eq {source : List Char} {nodes : List Node} (h : IsSyntaxOf source nodes) {site : Site}
    (hsite : site ∈ sitesOf nodes) {lead : List Trivia} {name : String}
    (hdeclared : site.node.item.declared? = some (lead, name)) :
    (∃ rest, source = upToRun (site.before.flatMap (·.written.toList)) lead ++
        (runOf lead).flatMap (·.text.toList) ++ (Tree.textOf site.node.trees).toList ++ rest) ∧
      Trivia.IsLead site.before.isEmpty lead ∧
      (site.before ≠ [] → EndsInText (site.before.flatMap (·.written.toList))) := by
  obtain ⟨⟨place, hlaid⟩, hne⟩ := h.isLaidOut_of_mem_sitesOf hsite
  obtain ⟨token, more, htokens, hlead⟩ := exists_tokensAll_eq_cons hne
  rw [hlaid.leadOf_eq hdeclared] at hlead
  obtain ⟨after, hsource⟩ := h.exists_ofSource?_eq hsite
  obtain ⟨rest, hrest⟩ := Token.exists_toList_eq hsource
  rw [htokens, List.append_assoc, List.cons_append] at hsource
  obtain ⟨hpieces, hend⟩ := Token.isLead_of_ofSource? hsource
  rw [hlead] at hpieces
  refine ⟨⟨after.flatMap (·.written.toList) ++ rest, ?_⟩, hpieces, hend (h.endsOutside_of_mem_sitesOf hsite)⟩
  have hwritten : token.written.toList = lead.flatMap (·.text.toList) ++ token.text.toList := by
    rw [Token.written, String.toList_append, Token.toList_before, hlead]
  have hsplit : lead.flatMap (·.text.toList) =
      (lead.rdropWhile (!·.isDirective)).flatMap (·.text.toList) ++ (runOf lead).flatMap (·.text.toList) := by
    rw [← List.flatMap_append, rdropWhile_append_runOf]
  rw [hrest, htokens, Tree.toList_textOf htokens, upToRun]
  simp only [List.flatMap_append, List.flatMap_cons, hwritten, hsplit, List.append_assoc]

/-- Each declaration of a source has, in its comments, those right before it that begin below the last line with text of
what is before them, but in two cases. When a directive stands right before the comments, the first one is missing,
although it stands on a line of its own; and when two of the comments begin on the last line with text, only the first
one of these is left out. -/
theorem comments_own_iff {options : Options} {source : String} {unit : SourceUnit}
    (hunit : unit? options source = some unit) :
    (∃ nodes, IsSyntaxOf source.toList nodes) ∧
      ∀ nodes, IsSyntaxOf source.toList nodes →
        Collects options.defaultNamespace [] unit (sitesOf nodes) ∧
          ∀ site ∈ sitesOf nodes, ∀ lead name, site.node.item.declared? = some (lead, name) →
            let before := upToRun (site.before.flatMap (·.written.toList)) lead
            (∃ rest, source.toList = before ++ (runOf lead).flatMap (·.text.toList) ++
                (Tree.textOf site.node.trees).toList ++ rest) ∧
              (comments lead = ownComments before (runOf lead) ↔
                ¬((∃ text, .directive text ∈ lead) ∧ ∃ text mark, .comment text mark ∈ runOf lead) ∧
                  (trailingComments before (runOf lead)).length ≤ 1) := by
  obtain ⟨items, hitems, -⟩ := Option.map_eq_some_iff.1 hunit
  refine ⟨exists_isSyntaxOf hitems, fun nodes hnodes => ⟨collects_sitesOf hunit hnodes, ?_⟩⟩
  intro site hsite lead name hdeclared
  obtain ⟨hwhere, hlead, hend⟩ := hnodes.exists_toList_eq hsite hdeclared
  refine ⟨hwhere, comments_eq_iff hlead ?_ fun hne => hend ?_⟩
  · cases hbefore : site.before with
    | nil => rfl
    | cons token tokens =>
      obtain ⟨c, hc, -⟩ := hend (by rw [hbefore]; exact List.cons_ne_nil _ _)
      rw [hbefore] at hc
      cases hwritten : (token :: tokens).flatMap (·.written.toList) with
      | nil =>
        rw [hwritten] at hc
        cases hc
      | cons => rfl
  · rintro hnil
    rw [hnil] at hne
    exact hne rfl

/-- A comment on a line of its own after a directive. -/
def regionSource : String := "class A \x7b \x7d\n#region R\n/// B\nclass B \x7b \x7d\n#endregion\n"

def regionLead : List Trivia := [.blank "\n", .directive "#region R\n", .comment "/// B" false, .blank "\n"]

def regionNodes : List Node := [bracedType [] "A" [], bracedType regionLead "B" []]

def regionUnit : SourceUnit :=
  { types := [{ name := "A", namespaceName := "Global" }, { name := "B", namespaceName := "Global" }] }

theorem isSyntaxOf_regionNodes : IsSyntaxOf regionSource.toList regionNodes := by
  refine isSyntaxOf_of_tokens (by decide +kernel) rfl rfl
    (List.forall_mem_cons.2 ⟨?_, List.forall_mem_singleton.2 ?_⟩) (by simp [regionNodes, bracedType, Node.trees])
  · exact isLaidOut_bracedType .file rfl (List.forall_mem_nil _) (List.forall_mem_nil _)
  · exact isLaidOut_bracedType .file rfl (List.forall_mem_nil _) (List.forall_mem_nil _)

theorem comments_regionSource :
    unit? {} regionSource = some regionUnit ∧ IsSyntaxOf regionSource.toList regionNodes ∧
      ∃ site ∈ sitesOf regionNodes, site.node.item.declared? = some (regionLead, "B") ∧
        comments regionLead ≠
          ownComments (upToRun (site.before.flatMap (·.written.toList)) regionLead) (runOf regionLead) := by
  have hunit : unit? {} regionSource = some regionUnit := by
    rw [unit?, isSyntaxOf_regionNodes.items]
    rfl
  obtain ⟨-, hall⟩ := comments_own_iff hunit
  obtain ⟨-, hsites⟩ := hall regionNodes isSyntaxOf_regionNodes
  let site : Site := ⟨{}, Tree.tokensAll (bracedType [] "A" []).trees, bracedType regionLead "B" []⟩
  have hsite : site ∈ sitesOf regionNodes := List.mem_cons_of_mem _ List.mem_cons_self
  have hdeclared : site.node.item.declared? = some (regionLead, "B") := rfl
  obtain ⟨-, hiff⟩ := hsites site hsite regionLead "B" hdeclared
  refine ⟨hunit, isSyntaxOf_regionNodes, site, hsite, hdeclared, fun heq => (hiff.1 heq).1 ⟨⟨"#region R\n", ?_⟩, ?_⟩⟩
  · exact List.mem_cons_of_mem _ List.mem_cons_self
  · exact ⟨"/// B", false, List.mem_cons_self⟩

example : comments [.blank " ", .comment "/* a */" false, .blank " ", .comment "/* b */" false, .blank "\n"] =
    ["/* b */"] := by decide

end TypeBridge.Source
