import TypeBridge.Proofs.Translation.Placeholder
import TypeBridge.Proofs.TypeMap.Effect
import Mathlib.Data.List.Nodup

/-!
# How the templates of a type map are filled

A placeholder of a template is the name of a parameter, or a name of a position: `T` for the first argument, and `T1`,
`T2` and so on for each. Filled at once, a parameter stands for the argument at its own position whatever it is called.
The replacements by position come first, though, so a parameter that is called like another position stands for the
argument there. And what one replacement puts in is searched by the next ones.

Results:
* `fill_eq_fillAtOnce`: all other templates are filled as if it were at once, when that leaves no placeholder.
* `fill_ne_fillAtOnce`: texts with which a template that has such a parameter is filled wrong.
* `nested_eq_fillAtOnce_iff`: the same for types that are translated by a type map.
-/
namespace TypeBridge

namespace Template

/-! ## What placeholders stand for -/

/-- The names of positions, for so many arguments. -/
def positionNames (count : Nat) : List String := "T" :: (List.range count).map fun i => "T" ++ toString (i + 1)

/-- What it means that a name is one of a position. -/
def IsPosition (name : String) (i : Nat) : Prop := name = "T" ∧ i = 0 ∨ name = "T" ++ toString (i + 1)

/-- What the names of positions stand for. -/
def positional (arguments : List String) : List (String × String) :=
  ("T", arguments.headD "") :: arguments.zipIdx.map fun (argument, i) => ("T" ++ toString (i + 1), argument)

/-- What the placeholders of a template stand for: a parameter for the argument at its own position, and any other
name for that of the position that it names. -/
def meanings (template : Template) (arguments : List String) : List (String × String) :=
  template.parameters.zip arguments ++ positional arguments

/-- The text of a template with all placeholders filled at once. -/
def fillAtOnce (template : Template) (arguments : List String) : String :=
  .ofList (fillWith (template.meanings arguments) template.text.toList)

/-- The names of the placeholders of a template. -/
def names (template : Template) : List String := template.parameters ++ positionNames template.parameters.length

/-- What it means that no placeholder is left in the text of a template. -/
def IsSettled (template : Template) (arguments : List String) : Prop :=
  ∀ name ∈ template.names, ¬ placeholder name <:+: (template.fillAtOnce arguments).toList

instance (template : Template) (arguments : List String) : Decidable (template.IsSettled arguments) :=
  inferInstanceAs (Decidable (∀ name ∈ template.names, ¬ placeholder name <:+: (template.fillAtOnce arguments).toList))

/-- What it means that a template has the placeholder of a parameter that is called like another position. -/
def Misplaces (template : Template) : Prop :=
  ∃ name i j, template.parameters[i]? = some name ∧ IsPosition name j ∧ j < template.parameters.length ∧ i ≠ j ∧
    placeholder name <:+: template.text.toList

/-! ## Names -/

theorem positionName_injective : Function.Injective fun i : Nat => "T" ++ toString (i + 1) := by
  intro i j h
  have hdigits : Nat.toDigits 10 (i + 1) = Nat.toDigits 10 (j + 1) := by
    have hrepr := congrArg String.toList ((String.append_right_inj "T").1 h)
    rwa [Nat.toString_eq_repr, Nat.toString_eq_repr, Nat.toList_repr, Nat.toList_repr] at hrepr
  have hvalue : i + 1 = j + 1 := by
    rw [← @Nat.ofDigitChars_ten_toDigits (i + 1), hdigits, Nat.ofDigitChars_ten_toDigits]
  exact Nat.succ.inj hvalue

theorem ne_positionName (i : Nat) : "T" ≠ "T" ++ toString (i + 1) := by
  intro h
  have hlength := congrArg String.length h
  simp at hlength

theorem isPlain_positionName (i : Nat) : IsPlain ("T" ++ toString (i + 1)) := by
  have hchars : ∀ c ∈ ("T" ++ toString (i + 1)).toList, c = 'T' ∨ c.isDigit = true := by
    intro c hc
    rw [String.toList_append, List.mem_append, Nat.toString_eq_repr, Nat.toList_repr] at hc
    rcases hc with hc | hc
    · exact .inl (by simpa using hc)
    · exact .inr (Nat.isDigit_of_mem_toDigits (by decide) (by decide) hc)
  constructor
  · intro hmem
    rcases hchars _ hmem with h | h <;> revert h <;> decide
  · intro hmem
    rcases hchars _ hmem with h | h <;> revert h <;> decide

theorem nodup_positionNames (count : Nat) : (positionNames count).Nodup := by
  refine List.nodup_cons.2 ⟨fun hmem => ?_, ?_⟩
  · obtain ⟨i, -, hi⟩ := List.mem_map.1 hmem
    exact ne_positionName i hi.symm
  · exact List.Nodup.map positionName_injective List.nodup_range

theorem isPlain_of_mem_names {template : Template} (hplain : ∀ name ∈ template.parameters, IsPlain name)
    {name : String} (hname : name ∈ template.names) : IsPlain name := by
  rw [names, positionNames, List.mem_append, List.mem_cons, List.mem_map] at hname
  rcases hname with hname | rfl | ⟨i, -, rfl⟩
  · exact hplain name hname
  · decide
  · exact isPlain_positionName i

/-! ## Entries -/

theorem map_fst_positional (arguments : List String) :
    (positional arguments).map (·.1) = positionNames arguments.length := by
  have hindices : arguments.zipIdx.map (·.2) = List.range arguments.length := by
    rw [List.zipIdx_map_snd, List.range_eq_range']
  rw [positional, List.map_cons, List.map_map, positionNames, ← hindices, List.map_map]
  rfl

section Lookup

variable {template : Template} {arguments : List String} {name : String}

/-- A name of a position stands for the argument there. -/
theorem lookup_positional {i : Nat} (hi : i < arguments.length) (h : IsPosition name i) :
    (positional arguments).lookup name = arguments[i]? := by
  have hnodup : ((positional arguments).map (·.1)).Nodup := by
    rw [map_fst_positional]
    exact nodup_positionNames _
  rw [List.getElem?_eq_getElem hi]
  refine Table.get?_of_mem hnodup ?_
  rcases h with ⟨rfl, rfl⟩ | rfl
  · obtain ⟨first, rest, rfl⟩ := List.exists_cons_of_length_pos hi
    exact List.mem_cons_self
  · refine List.mem_cons_of_mem _ (List.mem_map.2 ⟨(arguments[i], i), ?_, rfl⟩)
    exact List.mk_mem_zipIdx_iff_getElem?.2 (List.getElem?_eq_getElem hi)

/-- A parameter stands for the argument at its own position. -/
theorem lookup_parameters (hnodup : template.parameters.Nodup) (hlength : arguments.length = template.parameters.length)
    {i : Nat} (h : template.parameters[i]? = some name) :
    (template.parameters.zip arguments).lookup name = arguments[i]? := by
  obtain ⟨hi, -⟩ := List.getElem?_eq_some_iff.1 h
  rw [← hlength] at hi
  rw [List.getElem?_eq_getElem hi]
  refine Table.get?_of_mem ?_ (List.mem_iff_getElem?.2 ⟨i, List.getElem?_zip_eq_some.2 ⟨h, List.getElem?_eq_getElem hi⟩⟩)
  rwa [Table.names, List.map_fst_zip (Nat.le_of_eq hlength.symm)]

theorem not_mem_positionNames {count : Nat} (hcount : 0 < count) (h : ∀ i, i < count → ¬ IsPosition name i) :
    name ∉ positionNames count := by
  intro hmem
  rcases List.mem_cons.1 hmem with rfl | hmem
  · exact h 0 hcount (.inl ⟨rfl, rfl⟩)
  · obtain ⟨i, hi, rfl⟩ := List.mem_map.1 hmem
    exact h i (List.mem_range.1 hi) (.inr rfl)

/-- A name stands for the same text in either order unless it is that of a parameter and of another position. -/
theorem valueOf_comm (hnodup : template.parameters.Nodup) (hlength : arguments.length = template.parameters.length)
    (h : ∀ i j, template.parameters[i]? = some name → IsPosition name j → j < template.parameters.length → i = j) :
    valueOf (positional arguments ++ template.parameters.zip arguments) name =
      valueOf (template.meanings arguments) name := by
  rw [valueOf, valueOf, meanings, List.lookup_append, List.lookup_append]
  by_cases hmem : name ∈ template.parameters
  · obtain ⟨i, hi⟩ := List.mem_iff_getElem?.1 hmem
    obtain ⟨hlt, -⟩ := List.getElem?_eq_some_iff.1 hi
    rw [lookup_parameters hnodup hlength hi]
    by_cases hposition : ∃ j, j < template.parameters.length ∧ IsPosition name j
    · obtain ⟨j, hj, hposition⟩ := hposition
      rw [lookup_positional (hlength ▸ hj) hposition, h i j hi hposition hj]
    · have hnone : (positional arguments).lookup name = none := by
        refine Table.get?_eq_none ?_
        rw [Table.names, map_fst_positional, hlength]
        exact not_mem_positionNames (by omega) fun j hj hname => hposition ⟨j, hj, hname⟩
      rw [hnone, Option.or_none, Option.none_or]
  · have hnone : (template.parameters.zip arguments).lookup name = none := by
      refine Table.get?_eq_none ?_
      rwa [Table.names, List.map_fst_zip (Nat.le_of_eq hlength.symm)]
    rw [hnone, Option.or_none, Option.none_or]

theorem areNames_meanings (hlength : arguments.length = template.parameters.length) :
    AreNames template.names (template.meanings arguments) := by
  intro name
  rw [meanings, List.map_append, List.map_fst_zip (Nat.le_of_eq hlength.symm), map_fst_positional, hlength, names]

theorem areNames_replacements (hlength : arguments.length = template.parameters.length) :
    AreNames template.names (positional arguments ++ template.parameters.zip arguments) := by
  intro name
  rw [areNames_meanings hlength name, meanings, List.map_append, List.map_append, List.mem_append, List.mem_append,
    or_comm]

theorem isPlain_of_areNames (hplain : ∀ name ∈ template.parameters, IsPlain name) {entries : List (String × String)}
    (hnames : AreNames template.names entries) : ∀ entry ∈ entries, IsPlain entry.1 :=
  fun entry hentry => isPlain_of_mem_names hplain ((hnames entry.1).2 (List.mem_map_of_mem hentry))

/-- What a name stands for is one of the arguments. -/
theorem valueOf_mem {entries : List (String × String)} (hnames : AreNames template.names entries)
    (htexts : ∀ entry ∈ entries, entry.2 ∈ arguments) (hname : name ∈ template.names) :
    ∃ argument ∈ arguments, valueOf entries name = argument.toList := by
  rw [valueOf]
  cases hlookup : entries.lookup name with
  | none =>
    obtain ⟨entry, hentry, rfl⟩ := List.mem_map.1 ((hnames name).1 hname)
    have hne := List.lookup_eq_none_iff.1 hlookup entry hentry
    simp at hne
  | some text =>
    obtain ⟨before, after, rfl, -⟩ := List.lookup_eq_some_iff.1 hlookup
    exact ⟨text, htexts (name, text) (by simp), rfl⟩

theorem mem_arguments_of_mem_positional (hne : arguments ≠ []) :
    ∀ entry ∈ positional arguments, entry.2 ∈ arguments := by
  rw [positional, List.forall_mem_cons, List.forall_mem_map]
  refine ⟨Translator.headD_mem hne "", fun argument hmem => ?_⟩
  exact List.fst_mem_of_mem_zipIdx hmem

end Lookup

/-! ## Filling -/

section Filling

variable {template : Template} {arguments : List String}

/-- The replacements of a template in order. -/
theorem toList_fill (template : Template) (arguments : List String) :
    (template.fill arguments).toList =
      replaceAll (positional arguments ++ template.parameters.zip arguments) template.text.toList :=
  String.toList_ofList

theorem toList_fillAtOnce (hplain : ∀ name ∈ template.parameters, IsPlain name)
    (hlength : arguments.length = template.parameters.length) {pieces : List Piece}
    (h : Pieces template.names template.text.toList pieces) :
    (template.fillAtOnce arguments).toList = render (valueOf (template.meanings arguments)) pieces := by
  have hnames := areNames_meanings hlength
  rw [fillAtOnce, String.toList_ofList, fillWith_eq_render hnames (isPlain_of_areNames hplain hnames) h]

/-- When no placeholder is left, a template is filled as if it were at once, unless it has the placeholder of a parameter
that is called like another position. -/
theorem fill_eq_fillAtOnce (hplain : ∀ name ∈ template.parameters, IsPlain name) (hnodup : template.parameters.Nodup)
    (hlength : arguments.length = template.parameters.length) (hsettled : template.IsSettled arguments)
    (h : ¬ template.Misplaces) : template.fill arguments = template.fillAtOnce arguments := by
  obtain ⟨pieces, hpieces⟩ := exists_pieces template.names template.text.toList
  have hnames := areNames_replacements hlength
  have hvalues : render (valueOf (positional arguments ++ template.parameters.zip arguments)) pieces =
      render (valueOf (template.meanings arguments)) pieces := by
    refine render_congr fun name hmem => valueOf_comm hnodup hlength fun i j hi hposition hj => ?_
    by_contra hne
    have hoccurs := (hpieces.hole_mem_iff (fun _ => isPlain_of_mem_names hplain) (hpieces.mem_names hmem)).1 hmem
    exact h ⟨name, i, j, hi, hposition, hj, hne, hoccurs⟩
  rw [IsSettled, toList_fillAtOnce hplain hlength hpieces, ← hvalues] at hsettled
  rw [← String.toList_inj, toList_fill, toList_fillAtOnce hplain hlength hpieces, ← hvalues]
  exact replaceAll_eq_render hnames (isPlain_of_areNames hplain hnames) hpieces hsettled

section Long

variable {entries : List (String × String)} {size : Nat} (hnames : AreNames template.names entries)
  (htexts : ∀ entry ∈ entries, entry.2 ∈ arguments)
  (harguments : ∀ argument ∈ arguments, IsPlain argument ∧ argument.toList.length = size)

include hnames htexts harguments

/-- What names stand for is as long as the arguments, and has no braces either. -/
theorem valueOf_long {name : String} (hname : name ∈ template.names) :
    ('\x7b' ∉ valueOf entries name ∧ '\x7d' ∉ valueOf entries name) ∧ (valueOf entries name).length = size := by
  obtain ⟨argument, hargument, hvalue⟩ := valueOf_mem hnames htexts hname
  rw [hvalue]
  exact harguments argument hargument

theorem settled_of_long (hsize : ∀ name ∈ template.names, name.toList.length < size) {s : List Char}
    {pieces : List Piece} (h : Pieces template.names s pieces) :
    ∀ name ∈ template.names, ¬ placeholder name <:+: render (valueOf entries) pieces := by
  refine settled_render_of_long h (fun name hname => (valueOf_long hnames htexts harguments hname).1) ?_
  intro name hname other hother
  rw [(valueOf_long hnames htexts harguments hname).2]
  exact hsize other hother

end Long

/-- A template with such a placeholder is filled wrong with any texts of one length that are longer than all names and
have no braces, when the two positions have different ones. -/
theorem fill_ne_fillAtOnce (hplain : ∀ name ∈ template.parameters, IsPlain name) (hnodup : template.parameters.Nodup)
    (hlength : arguments.length = template.parameters.length) {name : String} {i j : Nat}
    (hi : template.parameters[i]? = some name) (hposition : IsPosition name j) (hj : j < template.parameters.length)
    (hoccurs : placeholder name <:+: template.text.toList) (hne : arguments[i]? ≠ arguments[j]?) {size : Nat}
    (harguments : ∀ argument ∈ arguments, IsPlain argument ∧ argument.toList.length = size)
    (hsize : ∀ name ∈ template.names, name.toList.length < size) :
    template.IsSettled arguments ∧ template.fill arguments ≠ template.fillAtOnce arguments := by
  obtain ⟨pieces, hpieces⟩ := exists_pieces template.names template.text.toList
  obtain ⟨hilt, -⟩ := List.getElem?_eq_some_iff.1 hi
  rw [← hlength] at hilt hj
  have hzip : ∀ entry ∈ template.parameters.zip arguments, entry.2 ∈ arguments :=
    fun entry hentry => (List.of_mem_zip hentry).2
  have hempty : arguments ≠ [] := List.ne_nil_of_length_pos (by omega)
  have hpositional := mem_arguments_of_mem_positional hempty
  -- The entries in the order of the meanings, and in the order of the replacements.
  have hmeanings := areNames_meanings hlength
  have hmeant := List.forall_mem_append.2 ⟨hzip, hpositional⟩
  have hreplacements := areNames_replacements hlength
  have hreplaced := List.forall_mem_append.2 ⟨hpositional, hzip⟩
  constructor
  · rw [IsSettled, toList_fillAtOnce hplain hlength hpieces]
    exact settled_of_long hmeanings hmeant harguments hsize hpieces
  · intro heq
    rw [← String.toList_inj, toList_fill, toList_fillAtOnce hplain hlength hpieces,
      replaceAll_eq_render hreplacements (isPlain_of_areNames hplain hreplacements) hpieces
        (settled_of_long hreplacements hreplaced harguments hsize hpieces)] at heq
    have hname : name ∈ template.names := List.mem_append_left _ (List.mem_iff_getElem?.2 ⟨i, hi⟩)
    have hhole := (hpieces.hole_mem_iff (fun _ => isPlain_of_mem_names hplain) hname).2 hoccurs
    have hvalue := eq_of_render_eq (fun other hmem => by
      have hother := hpieces.mem_names hmem
      rw [(valueOf_long hreplacements hreplaced harguments hother).2,
        (valueOf_long hmeanings hmeant harguments hother).2]) heq hhole
    rw [valueOf, valueOf, meanings, List.lookup_append, List.lookup_append, lookup_positional hj hposition,
      lookup_parameters hnodup hlength hi, List.getElem?_eq_getElem hilt, List.getElem?_eq_getElem hj] at hvalue
    rw [List.getElem?_eq_getElem hilt, List.getElem?_eq_getElem hj] at hne
    exact hne (congrArg some (String.toList_inj.1 hvalue).symm)

end Filling

end Template

namespace TypeMap

/-! ## Types with long texts -/

theorem exists_length_lt (texts : List String) : ∃ size, 0 < size ∧ ∀ text ∈ texts, text.toList.length < size := by
  induction texts with
  | nil => exact ⟨1, Nat.one_pos, nofun⟩
  | cons first rest ih =>
    obtain ⟨size, hsize, hrest⟩ := ih
    refine ⟨max (first.toList.length + 1) size, by omega, List.forall_mem_cons.2 ⟨by omega, fun text htext => ?_⟩⟩
    have := hrest text htext
    omega

/-- A name that no rule knows is its own text outside of all declarations. -/
theorem nested_unknown {translator : Translator} {name : String}
    (h : name ∉ translator.options.scalars.names ++ (translator.options.asyncResults ++ ["Action"])) :
    translator.nested {} (.named ⟨[], name⟩) = name := by
  rw [List.mem_append, List.mem_append, List.mem_singleton, not_or, not_or] at h
  obtain ⟨hscalar, hasync, haction⟩ := h
  have howner : translator.registry.owner? {} name = none := rfl
  rw [Translator.nested, Translator.nameText]
  simp only [List.getLast?_nil]
  rw [Translator.simpleText, Table.get?_eq_none hscalar]
  simp only
  rw [if_neg (by simpa using hasync), if_neg haction, howner]

/-- There are two types whose texts differ, have no braces, and are of one length, above that of some other texts. -/
theorem exists_types (translator : Translator) (texts : List String) :
    ∃ (size : Nat) (first second : String), (∀ text ∈ texts, text.toList.length < size) ∧ first ≠ second ∧
      ∀ name ∈ [first, second], (Template.IsPlain name ∧ name.toList.length = size) ∧
        translator.nested {} (.named ⟨[], name⟩) = name := by
  let known := translator.options.scalars.names ++ (translator.options.asyncResults ++ ["Action"])
  obtain ⟨size, hpos, hsize⟩ := exists_length_lt (texts ++ known)
  obtain ⟨htexts, hknown⟩ := List.forall_mem_append.1 hsize
  have hrepeated : ∀ c : Char, c ≠ '\x7b' → c ≠ '\x7d' →
      (Template.IsPlain (.ofList (List.replicate size c)) ∧
          (String.ofList (List.replicate size c)).toList.length = size) ∧
        translator.nested {} (.named ⟨[], .ofList (List.replicate size c)⟩) = .ofList (List.replicate size c) := by
    intro c hopen hclose
    have hlength : (String.ofList (List.replicate size c)).toList.length = size := by simp
    refine ⟨⟨⟨?_, ?_⟩, hlength⟩, nested_unknown fun hmem => ?_⟩
    · rw [String.toList_ofList, List.mem_replicate]
      exact fun h => hopen h.2.symm
    · rw [String.toList_ofList, List.mem_replicate]
      exact fun h => hclose h.2.symm
    · have hlt := hknown _ hmem
      omega
  refine ⟨size, .ofList (List.replicate size 'x'), .ofList (List.replicate size 'y'), htexts, fun heq => ?_, ?_⟩
  · have hhead := congrArg String.toList heq
    rw [String.toList_ofList, String.toList_ofList, List.replicate_inj] at hhead
    rcases hhead.2 with hzero | hchar
    · omega
    · exact absurd hchar (by decide)
  · exact List.forall_mem_cons.2 ⟨hrepeated 'x' (by decide) (by decide),
      List.forall_mem_singleton.2 (hrepeated 'y' (by decide) (by decide))⟩

/-- A template with the placeholder of a parameter that is called like another position is filled wrong with the texts
of some types. -/
theorem exists_misfilled (translator : Translator) {template : Template}
    (hplain : ∀ name ∈ template.parameters, Template.IsPlain name) (hnodup : template.parameters.Nodup)
    (h : template.Misplaces) :
    ∃ arguments : List TypeExpr, arguments.length = template.parameters.length ∧
      template.IsSettled (arguments.map (translator.nested {})) ∧
      template.fill (arguments.map (translator.nested {})) ≠
        template.fillAtOnce (arguments.map (translator.nested {})) := by
  obtain ⟨name, i, j, hi, hposition, hj, hne, hoccurs⟩ := h
  obtain ⟨size, first, second, hsize, hdiffer, htypes⟩ := exists_types translator template.names
  have hilt : i < template.parameters.length := (List.getElem?_eq_some_iff.1 hi).1
  -- One text at the position of the parameter, and another one at all others.
  let texts := (List.range template.parameters.length).map fun k => if k = i then first else second
  have hmem : ∀ text ∈ texts, text ∈ [first, second] := by
    intro text htext
    obtain ⟨k, -, rfl⟩ := List.mem_map.1 htext
    split <;> simp
  have hlength : texts.length = template.parameters.length := by simp [texts]
  have hvalues : texts[i]? ≠ texts[j]? := by
    simp [texts, hilt, hj, hne.symm, hdiffer]
  have htexts : (texts.map fun text => TypeExpr.named ⟨[], text⟩).map (translator.nested {}) = texts := by
    rw [List.map_map]
    exact (List.map_congr_left fun text htext => (htypes text (hmem text htext)).2).trans (List.map_id texts)
  refine ⟨texts.map fun text => .named ⟨[], text⟩, by rw [List.length_map, hlength], ?_⟩
  rw [htexts]
  exact Template.fill_ne_fillAtOnce hplain hnodup hlength hi hposition hj hoccurs hvalues
    (fun text htext => (htypes text (hmem text htext)).1) hsize

/-! ## Types that are translated by a template -/

variable {s : List Char} {map : TypeMap} {before after : List (List Char)} {line : List Char}

/-- The types that an entry applies to are translated as if its template was filled at once, when no placeholder is left
then, exactly if the template does not have the placeholder of a parameter that is called like another position. -/
theorem nested_eq_fillAtOnce_iff (h : ofText s = .ok map) (hlines : Text.lines s = before ++ line :: after)
    (registry : Registry) {name : String} {template : Template}
    (hline : Describes line (some (.template name template)))
    (hlast : ∀ l ∈ after, ∀ template, ¬ Describes l (some (.template name template)))
    (hplain : ∀ parameter ∈ template.parameters, Template.IsPlain parameter) (hnodup : template.parameters.Nodup)
    {applied : TypeName} (happlied : applied.text = name)
    (hbase : applied.qualifier = [] ∨ applied.first ≠ "System")
    (hnullable : ¬ (name = "Nullable" ∧ template.parameters.length = 1)) :
    (∀ (scope : Scope) (arguments : List TypeExpr), arguments.length = template.parameters.length →
        template.IsSettled (arguments.map ((map.translator registry).nested scope)) →
        (map.translator registry).nested scope (.generic applied arguments) =
            template.fillAtOnce (arguments.map ((map.translator registry).nested scope)) ∧
          ∀ source, TypeExpr.parse source = .ok (.generic applied arguments) →
            (map.translator registry).translate scope source =
              template.fillAtOnce (arguments.map ((map.translator registry).nested scope))) ↔
      ¬ template.Misplaces := by
  subst happlied
  have hname : applied.qualifier = [] ∨ (map.translator registry).isBase applied = false :=
    hbase.imp_right fun hne => by simpa [Translator.isBase, translator, options] using hne
  have hnot : (map.translator registry).isNullable applied template.parameters.length = false :=
    isNullable_eq_false hname hnullable
  have hfill : ∀ (scope : Scope) (arguments : List TypeExpr), arguments.length = template.parameters.length →
      (map.translator registry).nested scope (.generic applied arguments) =
        template.fill (arguments.map ((map.translator registry).nested scope)) := by
    intro scope arguments hlength
    exact nested_template hname (get?_templates_of_describes h hlines hline hlast) hlength (hlength ▸ hnot)
  constructor
  · intro hall hmisplaces
    obtain ⟨arguments, hlength, hsettled, hwrong⟩ :=
      exists_misfilled (map.translator registry) hplain hnodup hmisplaces
    rw [← hfill {} arguments hlength] at hwrong
    exact hwrong (hall {} arguments hlength hsettled).1
  · intro hnone scope arguments hlength hsettled
    have hright := Template.fill_eq_fillAtOnce hplain hnodup (by simpa using hlength) hsettled hnone
    have hnested := (hfill scope arguments hlength).trans hright
    exact ⟨hnested, fun source hsource => (translate_generic (hlength ▸ hnot) hsource).trans hnested⟩

/-- A parameter that is called like the first position is the second one: the second argument is not in the text. -/
theorem nested_ne_fillAtOnce_map :
    let template : Template := ⟨["K", "T"], "[\x7bK\x7d, \x7bT\x7d]"⟩
    let arguments : List TypeExpr := [.named ⟨[], "int"⟩, .named ⟨[], "string"⟩]
    ∃ map, ofText "Map<K, T>: [\x7bK\x7d, \x7bT\x7d]".toList = .ok map ∧
      (map.translator {}).nested {} (.generic ⟨[], "Map"⟩ arguments) = "[number, number]" ∧
      template.fillAtOnce (arguments.map ((map.translator {}).nested {})) = "[number, string]" ∧
      template.Misplaces := by
  intro template arguments
  have hline : Describes "Map<K, T>: [\x7bK\x7d, \x7bT\x7d]".toList (some (.template "Map" template)) :=
    describes_iff.2 (by decide +kernel)
  have hlines : Text.lines "Map<K, T>: [\x7bK\x7d, \x7bT\x7d]".toList =
      ["Map<K, T>: [\x7bK\x7d, \x7bT\x7d]".toList] := by decide +kernel
  have htext : ofText "Map<K, T>: [\x7bK\x7d, \x7bT\x7d]".toList = .ok { templates := [("Map", template)] } := by
    decide +kernel
  refine ⟨_, htext, by decide +kernel, by decide +kernel, ?_⟩
  have hiff := @nested_eq_fillAtOnce_iff _ _ [] [] _ htext hlines {} _ _ hline (by simp) (by decide) (by decide)
    ⟨[], "Map"⟩ rfl (.inl rfl) (by decide)
  by_contra hnone
  have hright := (hiff.2 hnone {} arguments rfl (by decide +kernel)).1
  revert hright
  decide +kernel

/-- What is put in for the first argument is searched for the placeholder of the second one. -/
theorem nested_ne_fillAtOnce_pair :
    let template : Template := ⟨["K", "V"], "[\x7bK\x7d, \x7bV\x7d]"⟩
    let arguments : List TypeExpr := [.named ⟨[], "Hole"⟩, .named ⟨[], "string"⟩]
    ∃ map, ofText "Pair<K, V>: [\x7bK\x7d, \x7bV\x7d]\nHole: \x7bV\x7d".toList = .ok map ∧
      (map.translator {}).nested {} (.generic ⟨[], "Pair"⟩ arguments) = "[string, string]" ∧
      template.fillAtOnce (arguments.map ((map.translator {}).nested {})) = "[\x7bV\x7d, string]" := by
  intro template arguments
  have htext : ofText "Pair<K, V>: [\x7bK\x7d, \x7bV\x7d]\nHole: \x7bV\x7d".toList =
      .ok { scalars := [("Hole", "\x7bV\x7d")], templates := [("Pair", template)] } := by decide +kernel
  exact ⟨_, htext, by decide +kernel, by decide +kernel⟩

end TypeMap

end TypeBridge
