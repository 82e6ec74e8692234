import TypeBridge.Text.Line
import Mathlib.Data.List.DropRight

/-!
# Trimming

Texts are trimmed of blanks and lists of lines of blank lines in the same way: the members that satisfy some
predicate are dropped at both ends.

Results:
* `isTrimmed_trimEdges`, `trimEdges_eq_self_iff`: what is trimmed, and that trimming it again changes nothing.
* `exists_trimEdges`, `filter_trimEdges`: what trimming drops.
* `isTrimmed_flatMap_iff`: lists that are put together.
-/
namespace TypeBridge.Text

variable {α : Type} {p : α → Bool}

/-! ## Both ends of a list -/

/-- A list without the members that satisfy `p` at both of its ends. -/
def trimEdges (p : α → Bool) (l : List α) : List α := (l.dropWhile p).rdropWhile p

/-- What it means that there is nothing to trim at either end of a list. -/
structure IsTrimmed (p : α → Bool) (l : List α) : Prop where
  first : ∀ a ∈ l.head?, p a = false
  last : ∀ a ∈ l.getLast?, p a = false

theorem isTrimmed_nil : IsTrimmed p [] := ⟨by simp, by simp⟩

theorem isTrimmed_singleton {a : α} : IsTrimmed p [a] ↔ p a = false :=
  ⟨fun h => h.first a rfl, fun h => ⟨by simpa using h, by simpa using h⟩⟩

/-- Only members that satisfy the predicate are dropped, and only before and after all that stays. -/
theorem exists_trimEdges (p : α → Bool) (l : List α) : ∃ before after,
    l = before ++ trimEdges p l ++ after ∧ (∀ a ∈ before, p a = true) ∧ ∀ a ∈ after, p a = true := by
  refine ⟨l.takeWhile p, (l.dropWhile p).rtakeWhile p, ?_, fun a => List.mem_takeWhile_imp,
    fun a => List.mem_rtakeWhile_imp⟩
  rw [List.append_assoc, trimEdges, List.rdropWhile_append_rtakeWhile, List.takeWhile_append_dropWhile]

theorem sublist_trimEdges (p : α → Bool) (l : List α) : (trimEdges p l).Sublist l :=
  (List.rdropWhile_prefix p _).sublist.trans (List.dropWhile_sublist p)

theorem isTrimmed_trimEdges (p : α → Bool) (l : List α) : IsTrimmed p (trimEdges p l) := by
  constructor
  · intro a ha
    obtain ⟨rest, hrest⟩ := List.rdropWhile_prefix p (l.dropWhile p)
    have hhead := List.head?_dropWhile_not p l
    rw [trimEdges] at ha
    rw [← hrest, List.head?_append, Option.mem_def.1 ha] at hhead
    exact hhead
  · intro a ha
    have hne : trimEdges p l ≠ [] := fun h => by simp [h] at ha
    rw [List.getLast?_eq_some_getLast hne, Option.mem_some_iff] at ha
    exact Bool.eq_false_iff.2 (ha ▸ List.rdropWhile_last_not p (l.dropWhile p) hne)

theorem trimEdges_eq_self {l : List α} (h : IsTrimmed p l) : trimEdges p l = l := by
  have hstart : l.dropWhile p = l := by
    cases l with
    | nil => rfl
    | cons a l => simp [h.first a rfl]
  rw [trimEdges, hstart, List.rdropWhile_eq_self_iff]
  exact fun hne => Bool.eq_false_iff.1 (h.last _ (List.getLast?_eq_some_getLast hne))

theorem trimEdges_eq_self_iff {l : List α} : trimEdges p l = l ↔ IsTrimmed p l :=
  ⟨fun h => h ▸ isTrimmed_trimEdges p l, trimEdges_eq_self⟩

/-- An end of a trimmed list has a member that is not to be trimmed: the last one. -/
theorem IsTrimmed.exists_of_suffix {l rest : List α} (h : IsTrimmed p l) (hrest : rest <:+ l) (hne : rest ≠ []) :
    ∃ a ∈ rest, p a = false := by
  refine ⟨rest.getLast hne, List.getLast_mem hne, h.last _ ?_⟩
  rw [hrest.getLast hne]
  exact List.getLast?_eq_some_getLast _

theorem trimEdges_cons {a : α} (h : p a = true) (l : List α) : trimEdges p (a :: l) = trimEdges p l := by
  rw [trimEdges, List.dropWhile_cons_of_pos h, trimEdges]

theorem trimEdges_concat {a : α} (h : p a = true) (l : List α) : trimEdges p (l ++ [a]) = trimEdges p l := by
  rw [trimEdges, trimEdges, List.dropWhile_append]
  split
  · rename_i hempty
    simp [List.isEmpty_iff.1 hempty, h]
  · rw [List.rdropWhile_concat_pos p _ a h]

theorem trimEdges_append {dropped : List α} (h : ∀ a ∈ dropped, p a = true) (l : List α) :
    trimEdges p (l ++ dropped) = trimEdges p l := by
  induction dropped using List.reverseRecOn with
  | nil => rw [List.append_nil]
  | append_singleton dropped a ih =>
    obtain ⟨hdropped, ha⟩ := List.forall_mem_append.1 h
    rw [← List.append_assoc, trimEdges_concat (ha a List.mem_cons_self), ih hdropped]

theorem filter_trimEdges (p : α → Bool) (l : List α) :
    (trimEdges p l).filter (fun a => !p a) = l.filter fun a => !p a := by
  obtain ⟨before, after, hl, hbefore, hafter⟩ := exists_trimEdges p l
  have hdropped {dropped : List α} (h : ∀ a ∈ dropped, p a = true) : dropped.filter (fun a => !p a) = [] :=
    List.filter_eq_nil_iff.2 fun a ha => by simp [h a ha]
  conv_rhs => rw [hl]
  rw [List.filter_append, List.filter_append, hdropped hbefore, hdropped hafter, List.nil_append, List.append_nil]

theorem trimEdges_eq_nil_iff {l : List α} : trimEdges p l = [] ↔ ∀ a ∈ l, p a = true := by
  constructor
  · intro h
    have hkept := filter_trimEdges p l
    rw [h, List.filter_nil, eq_comm, List.filter_eq_nil_iff] at hkept
    exact fun a ha => by simpa using hkept a ha
  · intro h
    have hstart : l.dropWhile p = [] := List.dropWhile_eq_nil_iff.2 h
    rw [trimEdges, hstart, List.rdropWhile_nil]

theorem trimEdges_map {β : Type} (p : β → Bool) (f : α → β) (l : List α) :
    trimEdges p (l.map f) = (trimEdges (p ∘ f) l).map f := by
  simp only [trimEdges, List.rdropWhile, List.dropWhile_map, ← List.map_reverse]

theorem isTrimmed_map {β : Type} {p : β → Bool} {f : α → β} {l : List α} :
    IsTrimmed p (l.map f) ↔ IsTrimmed (p ∘ f) l := by
  constructor
  · exact fun h => ⟨fun a ha => h.first (f a) (by simpa using ⟨a, ha, rfl⟩),
      fun a ha => h.last (f a) (by simpa using ⟨a, ha, rfl⟩)⟩
  · intro h
    constructor
    · intro b hb
      rw [List.head?_map, Option.mem_def, Option.map_eq_some_iff] at hb
      obtain ⟨a, ha, rfl⟩ := hb
      exact h.first a ha
    · intro b hb
      rw [List.getLast?_map, Option.mem_def, Option.map_eq_some_iff] at hb
      obtain ⟨a, ha, rfl⟩ := hb
      exact h.last a ha

/-- A list is put together of lists with members. It begins as the first of them does and ends as the last one. -/
theorem isTrimmed_flatMap_iff {β : Type} {f : β → List α} {l : List β} (h : ∀ b ∈ l, f b ≠ []) :
    IsTrimmed p (l.flatMap f) ↔
      (∀ b ∈ l.head?, ∀ a ∈ (f b).head?, p a = false) ∧ ∀ b ∈ l.getLast?, ∀ a ∈ (f b).getLast?, p a = false := by
  have hfirst : (l.flatMap f).head? = l.head?.bind fun b => (f b).head? := by
    cases l with
    | nil => rfl
    | cons b l => rw [List.flatMap_cons, List.head?_append_of_ne_nil _ (h b List.mem_cons_self)]; rfl
  have hlast : (l.flatMap f).getLast? = l.getLast?.bind fun b => (f b).getLast? := by
    rcases List.eq_nil_or_concat' l with rfl | ⟨l, b, rfl⟩
    · rfl
    · rw [List.flatMap_append, List.flatMap_singleton,
        List.getLast?_append_of_ne_nil _ (h b (by simp)), List.getLast?_concat]
      rfl
  have hbind (o : Option β) (g : β → Option α) : (∀ a ∈ o.bind g, p a = false) ↔ ∀ b ∈ o, ∀ a ∈ g b, p a = false := by
    cases o <;> simp
  rw [← hbind, ← hbind, ← hfirst, ← hlast]
  exact ⟨fun h => ⟨h.first, h.last⟩, fun h => ⟨h.1, h.2⟩⟩

/-! ## Texts -/

theorem trim_eq_trimEdges (s : List Char) : trim s = trimEdges isBlank s := rfl

theorem trimBlankLines_eq_trimEdges (ls : List (List Char)) : trimBlankLines ls = trimEdges isBlankText ls := rfl

theorem trim_eq_nil_iff {s : List Char} : trim s = [] ↔ isBlankText s = true :=
  trimEdges_eq_nil_iff.trans List.all_eq_true.symm

theorem not_mem_of_isBlankText {s : List Char} (h : isBlankText s = true) {c : Char} (hc : isBlank c = false) : c ∉ s :=
  fun hmem => Bool.noConfusion (hc.symm.trans (List.all_eq_true.1 h c hmem))

theorem trim_cons_of_isBlank {c : Char} (h : isBlank c = true) (s : List Char) : trim (c :: s) = trim s :=
  trimEdges_cons h s

theorem trimStart_append_of_isBlankText {blanks : List Char} (h : isBlankText blanks = true) (s : List Char) :
    trimStart (blanks ++ s) = trimStart s :=
  List.dropWhile_append_of_pos (List.all_eq_true.1 h)

/-- Only the blanks at the end of a text are trimmed, not those before what is not blank. -/
theorem trimEnd_append {s : List Char} (h : isBlankText s = false) (before : List Char) :
    trimEnd (before ++ s) = before ++ trimEnd s := by
  have hne : (s.reverse.dropWhile isBlank).isEmpty = false := by
    rw [Bool.eq_false_iff, ne_eq, List.isEmpty_iff, List.dropWhile_eq_nil_iff]
    intro hall
    rw [isBlankText, Bool.eq_false_iff, ne_eq, List.all_eq_true] at h
    exact h fun c hc => hall c (List.mem_reverse.2 hc)
  rw [trimEnd, List.reverse_append, List.dropWhile_append, hne, if_neg Bool.false_ne_true, List.reverse_append,
    List.reverse_reverse, trimEnd]

theorem trimEnd_eq_nil_iff {s : List Char} : trimEnd s = [] ↔ isBlankText s = true :=
  (List.rdropWhile_eq_nil_iff (p := isBlank)).trans List.all_eq_true.symm

theorem prefix_trimEnd (s : List Char) : trimEnd s <+: s := List.rdropWhile_prefix isBlank s

theorem isBlankText_trimEnd (s : List Char) : isBlankText (trimEnd s) = isBlankText s := by
  rw [Bool.eq_iff_iff, ← trimEnd_eq_nil_iff, ← trimEnd_eq_nil_iff]
  exact iff_of_eq (congrArg (· = []) (List.rdropWhile_idempotent isBlank s))

theorem trim_trimEnd (s : List Char) : trim (trimEnd s) = trim s := by
  have hs : s = trimEnd s ++ s.rtakeWhile isBlank := List.rdropWhile_append_rtakeWhile.symm
  conv_rhs => rw [hs]
  exact (trimEdges_append (fun c => List.mem_rtakeWhile_imp) _).symm

theorem trim_trim (s : List Char) : trim (trim s) = trim s := trimEdges_eq_self (isTrimmed_trimEdges isBlank s)

/-- A trimmed text is blank only if it is empty. -/
theorem isBlankText_trim (s : List Char) : isBlankText (trim s) = (trim s).isEmpty := by
  rw [Bool.eq_iff_iff, ← trim_eq_nil_iff, trim_trim, List.isEmpty_iff]

end TypeBridge.Text
