import TypeBridge.Proofs.Files.Lookup

/-!
# Paths, their texts and where they lead to

The names of a path are those in its text. Where a path leads to depends on nothing but its names, as soon as it leads
anywhere: two dots take away the name before them, and any other name comes after the names before it.

Results:
* `Path.IsCanonical.ofText_text`, `splitOn_text`, `endsWith_text`: what is read back from the text of a path.
* `Path.walk_eq_take_append`: what is left of a place and of the names that are followed from there.
* `FileSystem.place_eq_resolve`: where a path leads to.
* `FileSystem.getLast?_place`: the last name of a path that leads to no directory.
* `FileTree.mem_files`: the file that is found at a place is one of the files of the tree.
-/
namespace TypeBridge

/-! ## Texts of paths -/

namespace Path

variable {path : Path} {here names : List String}

/-- What it means that a path is one that some text gives. -/
structure IsCanonical (path : Path) : Prop where
  root : path.root = "" ∨ path.root = "/" ∨ path.root = "//"
  counts : ∀ name ∈ path.parts, counts name.toList = true
  separate : ∀ name ∈ path.parts, '/' ∉ name.toList

theorem isCanonical_ofText (text : String) : (ofText text).IsCanonical := by
  refine ⟨?_, fun name hname => ?_, fun name hname => ?_⟩
  · simp only [ofText, rootOf]
    split <;> simp
  all_goals
    obtain ⟨piece, hpiece, rfl⟩ := List.mem_map.1 hname
    obtain ⟨hmem, hcounts⟩ := List.mem_filter.1 hpiece
    rw [String.toList_ofList]
  · exact hcounts
  · exact Text.not_mem_of_mem_splitOn rfl hmem

theorem text_of_parts (hparts : path.parts ≠ []) : path.text = path.root ++ "/".intercalate path.parts := by
  rw [text, List.isEmpty_eq_false_iff.2 hparts, Bool.and_false, if_neg Bool.false_ne_true]

theorem toList_text (hparts : path.parts ≠ []) :
    path.text.toList = path.root.toList ++ ['/'].intercalate (path.parts.map String.toList) := by
  rw [text_of_parts hparts, String.toList_append, String.toList_intercalate]
  rfl

namespace IsCanonical

variable (h : path.IsCanonical)
include h

theorem splitOn_parts (hparts : path.parts ≠ []) :
    Text.splitOn (· == '/') (['/'].intercalate (path.parts.map String.toList)) = path.parts.map String.toList := by
  rw [Text.splitOn_eq_splitOnP, ← List.splitOn_eq_splitOnP, List.splitOn_intercalate]
  · intro name hname
    obtain ⟨part, hpart, rfl⟩ := List.mem_map.1 hname
    exact h.separate part hpart
  · rwa [Ne, List.map_eq_nil_iff]

/-- After its root, the text of a path does not begin with a slash. -/
theorem exists_intercalate_parts (hparts : path.parts ≠ []) :
    ∃ c rest, ['/'].intercalate (path.parts.map String.toList) = c :: rest ∧ c ≠ '/' := by
  obtain ⟨first, more, hfirst⟩ := List.exists_cons_of_ne_nil hparts
  have hcounts := h.counts first (hfirst ▸ List.mem_cons_self)
  have hseparate := h.separate first (hfirst ▸ List.mem_cons_self)
  cases hchars : first.toList with
  | nil =>
    rw [hchars] at hcounts
    cases hcounts
  | cons c cs =>
    rw [hchars, List.mem_cons, not_or] at hseparate
    rw [hfirst, List.map_cons, hchars]
    cases more with
    | nil => exact ⟨c, cs, by simp, Ne.symm hseparate.1⟩
    | cons second more => exact ⟨c, _, by rw [List.map_cons, List.intercalate_cons_cons]; rfl, Ne.symm hseparate.1⟩

/-- The names of a path are the pieces of its text between the slashes after its root. -/
theorem splitOn_text (hparts : path.parts ≠ []) :
    (Text.splitOn (· == '/') (path.text.toList.dropWhile (· == '/'))).map String.ofList = path.parts := by
  obtain ⟨c, rest, hjoined, hc⟩ := h.exists_intercalate_parts hparts
  have hroot : ∀ d ∈ path.root.toList, (d == '/') = true := by
    intro d hd
    rcases h.root with hroot | hroot | hroot <;> rw [hroot] at hd <;> simp_all
  have hstart : (c :: rest).dropWhile (· == '/') = c :: rest := List.dropWhile_cons_of_neg (by simpa using hc)
  rw [toList_text hparts, List.dropWhile_append_of_pos hroot, hjoined, hstart, ← hjoined, h.splitOn_parts hparts,
    List.map_map]
  simp

/-- A path is the one that its text gives. -/
theorem ofText_text (hparts : path.parts ≠ []) : ofText path.text = path := by
  obtain ⟨c, rest, hjoined, hc⟩ := h.exists_intercalate_parts hparts
  have hroot : rootOf path.text.toList = path.root := by
    rw [toList_text hparts, hjoined]
    rcases h.root with hroot | hroot | hroot <;> rw [hroot] <;> simp [rootOf, hc]
  have hpieces : (Text.splitOn (· == '/') path.text.toList).filter Path.counts = path.parts.map String.toList := by
    have hcounts : (path.parts.map String.toList).filter Path.counts = path.parts.map String.toList := by
      rw [List.filter_eq_self]
      intro name hname
      obtain ⟨part, hpart, rfl⟩ := List.mem_map.1 hname
      exact h.counts part hpart
    rw [toList_text hparts]
    rcases h.root with hroot | hroot | hroot <;>
      simpa [hroot, Text.splitOn, h.splitOn_parts hparts, Path.counts] using hcounts
  rw [ofText, hroot, hpieces, List.map_map]
  simp

/-- What the text of a path ends with, up to the slash before it, is what its last name ends with. -/
theorem endsWith_text {last : String} (hlast : path.parts.getLast? = some last)
    {tail : List Char} (htail : '/' ∉ tail) : Text.endsWith tail path.text.toList = Text.endsWith tail last.toList := by
  obtain ⟨before, hparts⟩ := List.getLast?_eq_some_iff.1 hlast
  have hfront : ∃ front : List Char, path.text.toList = front ++ last.toList ∧
      (front = [] ∨ ∃ f, front = f ++ ['/']) := by
    rw [text_of_parts (by simp [hparts]), hparts]
    by_cases hbefore : before = []
    · subst hbefore
      refine ⟨path.root.toList, by simp, ?_⟩
      rcases h.root with hroot | hroot | hroot <;> rw [hroot]
      · exact .inl rfl
      · exact .inr ⟨[], rfl⟩
      · exact .inr ⟨['/'], rfl⟩
    · rw [String.intercalate_append_of_ne_nil hbefore (by simp)]
      refine ⟨(path.root ++ "/".intercalate before ++ "/").toList, by simp, .inr ⟨_, String.toList_append⟩⟩
  obtain ⟨front, htext, hfront⟩ := hfront
  rw [Text.endsWith, Text.endsWith, htext, Bool.eq_iff_iff, List.isSuffixOf_iff_suffix, List.isSuffixOf_iff_suffix]
  refine ⟨fun hsuffix => ?_, fun hsuffix => hsuffix.trans (List.suffix_append _ _)⟩
  rcases hfront with rfl | ⟨f, rfl⟩
  · exact hsuffix
  · by_cases hlength : tail.length ≤ last.toList.length
    · exact List.suffix_of_suffix_length_le hsuffix (List.suffix_append _ _) hlength
    · -- A longer ending would have the slash before the last name in it.
      rw [List.append_assoc] at hsuffix
      have hslash : ['/'] ++ last.toList <:+ tail :=
        List.suffix_of_suffix_length_le (List.suffix_append _ _) hsuffix (by simp; omega)
      exact absurd (hslash.subset (by simp)) htail

end IsCanonical

/-! ## Following names -/

/-- The place that some names lead to from a place when all of them can be followed. -/
def walk (here names : List String) : List String :=
  names.foldl (fun before name => if name = ".." then before.dropLast else before ++ [name]) here

theorem walk_append (here first second : List String) : walk here (first ++ second) = walk (walk here first) second :=
  List.foldl_append

theorem not_mem_walk (h : ".." ∉ here) (names : List String) : ".." ∉ walk here names := by
  induction names generalizing here with
  | nil => exact h
  | cons name names ih =>
    refine ih ?_
    simp only
    split
    · exact fun hmem => h ((List.dropLast_sublist _).subset hmem)
    · rename_i hname
      simp [h, Ne.symm hname]

theorem walk_of_not_mem (here : List String) (h : ".." ∉ names) : walk here names = here ++ names := by
  induction names generalizing here with
  | nil => exact (List.append_nil here).symm
  | cons name names ih =>
    rw [List.mem_cons, not_or] at h
    rw [walk, List.foldl_cons, if_neg (Ne.symm h.1), ← walk, ih _ h.2, List.append_assoc]
    rfl

/-- What is left of a place comes first, and then some of the names that have been followed. -/
theorem walk_eq_take_append (here names : List String) :
    ∃ count kept, walk here names = here.take count ++ kept ∧ kept.Sublist names := by
  induction names generalizing here with
  | nil => exact ⟨here.length, [], by simp [walk], .slnil⟩
  | cons name names ih =>
    rw [walk, List.foldl_cons, ← walk]
    split
    · obtain ⟨count, kept, heq, hkept⟩ := ih here.dropLast
      refine ⟨min count (here.length - 1), kept, ?_, hkept.cons _⟩
      rw [heq, List.dropLast_eq_take, List.take_take]
    · obtain ⟨count, kept, heq, hkept⟩ := ih (here ++ [name])
      by_cases hcount : count ≤ here.length
      · exact ⟨count, kept, by rw [heq, List.take_append_of_le_length hcount], hkept.cons _⟩
      · refine ⟨here.length, name :: kept, ?_, hkept.cons_cons name⟩
        rw [heq, List.take_of_length_le (by simp; omega), List.take_length, List.append_assoc]
        rfl

/-- The names below a place to which names lead back are some of those names. -/
theorem sublist_of_walk {place rest : List String} (h : walk place rest = place ++ names) : names.Sublist rest := by
  obtain ⟨count, kept, heq, hkept⟩ := walk_eq_take_append place rest
  have hnames : place.drop count ++ names = kept := by
    have htake : place.take count ++ (place.drop count ++ names) = place.take count ++ kept := by
      rw [← List.append_assoc, List.take_append_drop, ← h, heq]
    exact List.append_cancel_left htake
  rw [← hnames] at hkept
  exact (List.sublist_append_right _ _).trans hkept

end Path

/-! ## Where paths lead to -/

namespace FileSystem

variable {system : FileSystem} {path : Path} {here names place : List String}

theorem placeFrom_eq_walk (h : system.placeFrom here names = .ok place) : place = Path.walk here names := by
  induction names generalizing here with
  | nil =>
    cases h
    rfl
  | cons name names ih =>
    rw [placeFrom] at h
    split at h
    · exact ih h
    · cases h
    · cases h

/-- A path that leads anywhere leads to what its names say. -/
theorem place_eq_resolve (hdots : ".." ∉ system.workingDirectory) (h : system.place path = .ok place) :
    place = path.resolve system.workingDirectory := by
  rw [placeFrom_eq_walk h, Path.resolve]
  split
  · rfl
  · have hworking := Path.walk_of_not_mem [] hdots
    rw [List.nil_append] at hworking
    change _ = Path.walk [] _
    rw [Path.walk_append, hworking]

theorem getLast?_placeFrom (hhere : system.tree.HasDirectory here) (hplace : ¬ system.tree.HasDirectory place)
    (h : system.placeFrom here names = .ok place) : place.getLast? = names.getLast? := by
  induction names generalizing here with
  | nil =>
    cases h
    exact absurd hhere hplace
  | cons name names ih =>
    obtain ⟨entries, hget⟩ := hhere
    simp only [placeFrom, hget] at h
    cases names with
    | nil =>
      cases h
      split at hplace
      · exact absurd (FileTree.HasDirectory.dropLast ⟨entries, hget⟩) hplace
      · rename_i hname
        rw [if_neg hname, List.getLast?_concat]
        rfl
    | cons second names => rw [ih (hasDirectory_of_placeFrom_cons h) h, List.getLast?_cons_cons]

/-- What is not a directory has the last name of each path that leads to it. -/
theorem getLast?_place (hworking : system.HasWorkingDirectory) (hplace : ¬ system.tree.HasDirectory place)
    (h : system.place path = .ok place) : place.getLast? = path.parts.getLast? :=
  getLast?_placeFrom (hasDirectory_start hworking path) hplace h

end FileSystem

/-! ## The files of a tree -/

namespace FileTree

theorem mem_filesIn {entries : List (String × FileTree)} {name : String} {tree : FileTree} {place : List String}
    {file : List String × List UInt8} (h : (name, tree) ∈ entries) (hfile : file ∈ filesAt (place ++ [name]) tree) :
    file ∈ filesIn place entries := by
  induction entries with
  | nil => cases h
  | cons entry entries ih =>
    obtain ⟨other, inner⟩ := entry
    rw [filesIn, List.mem_append]
    rcases List.mem_cons.1 h with heq | h
    · cases heq
      exact .inl hfile
    · exact .inr (ih h)

theorem mem_filesAt {tree : FileTree} {names : List String} {bytes : List UInt8} (place : List String)
    (h : tree.get? names = some (.file bytes)) : (place ++ names, bytes) ∈ filesAt place tree := by
  induction names generalizing tree place with
  | nil =>
    rw [get?_nil] at h
    cases h
    rw [List.append_nil]
    exact List.mem_singleton.2 rfl
  | cons name names ih =>
    cases tree with
    | file other => cases h
    | directory entries =>
      rw [get?] at h
      obtain ⟨inner, hinner, hnames⟩ := Option.bind_eq_some_iff.1 h
      obtain ⟨before, after, rfl, -⟩ := List.lookup_eq_some_iff.1 hinner
      have hmem := ih (place ++ [name]) hnames
      rw [← List.append_cons] at hmem
      exact mem_filesIn (List.mem_append_right before List.mem_cons_self) hmem

theorem mem_files {tree : FileTree} {names : List String} {bytes : List UInt8}
    (h : tree.get? names = some (.file bytes)) : (names, bytes) ∈ tree.files :=
  mem_filesAt [] h

end FileTree

end TypeBridge
