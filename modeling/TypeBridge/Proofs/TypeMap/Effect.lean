import TypeBridge.Proofs.TypeMap.Entry
import TypeBridge.Proofs.Translation.Structure

/-!
# Which entries of a type map take effect

An entry takes effect when types are translated with the options of its type map, unless another rule goes
before the tables: the qualifier of a name of the base library counts for nothing, so that an entry for
such a name with its qualifier is never looked up, and what marks its argument as optional is no generic type.

Results:
* `get?_scalars_of_describes`, `get?_templates_of_describes`: the last entry for a name stands in the options.
* `translate_scalar`, `nested_template`: what stands in the options goes before the other rules.

At the end stand the entries that take effect, and two that do not.
-/
namespace TypeBridge.TypeMap

/-- The translation with a type map. -/
def translator (map : TypeMap) (registry : Registry) : Translator :=
  { options := map.options, registry := registry }

/-! ## Entries in the options -/

theorem addOption_empty_inj {entry entry' : Option Entry} (h : addOption {} entry = addOption {} entry') :
    entry = entry' := by
  match entry, entry' with
  | none, none => rfl
  | none, some (.scalar _ _) => cases h
  | none, some (.template _ _) => cases h
  | some (.scalar _ _), none => cases h
  | some (.template _ _), none => cases h
  | some (.scalar _ _), some (.template _ _) => cases h
  | some (.template _ _), some (.scalar _ _) => cases h
  | some (.scalar _ _), some (.scalar _ _) =>
    cases h
    rfl
  | some (.template _ _), some (.template _ _) =>
    cases h
    rfl

/-- What a line says is what it adds to no entries at all. -/
theorem describes_iff {line : List Char} {entry : Option Entry} :
    Describes line entry ↔ addLine {} line = .ok (addOption {} entry) := by
  rw [addLine_eq_ok]
  constructor
  · exact fun h => ⟨entry, h, rfl⟩
  · rintro ⟨entry', h, heq⟩
    exact addOption_empty_inj heq ▸ h

/-- A line says one thing. -/
theorem Describes.unique {line : List Char} {entry entry' : Option Entry} (h : Describes line entry)
    (h' : Describes line entry') : entry = entry' :=
  addOption_empty_inj (Except.ok.inj ((describes_iff.1 h).symm.trans (describes_iff.1 h')))

variable {s : List Char} {map : TypeMap} {before after : List (List Char)} {line : List Char}

/-- The entries of a text around those of one of its lines. -/
theorem exists_entries_of_ofText (h : ofText s = .ok map) (hlines : Text.lines s = before ++ line :: after)
    {entry : Option Entry} (hline : Describes line entry) :
    ∃ entries entries', map = addAll {} (entries ++ entry :: entries') ∧
      List.Forall₂ Describes after entries' := by
  rw [ofText, hlines] at h
  obtain ⟨all, hall, rfl⟩ := addLines_eq_ok.1 h
  have htake := List.forall₂_take_append _ _ _ hall.flip
  have hdrop := List.forall₂_drop_append _ _ _ hall.flip
  cases hrest : all.drop before.length with
  | nil =>
    rw [hrest] at hdrop
    cases hdrop
  | cons entry' entries' =>
    rw [hrest] at hdrop
    cases hdrop with
    | cons hentry hentries =>
      have hsplit := List.take_append_drop before.length all
      rw [hrest, hentry.unique hline] at hsplit
      exact ⟨_, entries', by rw [hsplit], hentries.flip⟩

theorem exists_line_of_mem {lines : List (List Char)} {entries : List (Option Entry)}
    (h : List.Forall₂ Describes lines entries) {entry : Option Entry} (hmem : entry ∈ entries) :
    ∃ l ∈ lines, Describes l entry := by
  induction h with
  | nil => simp at hmem
  | cons hline _ ih =>
    rcases List.mem_cons.1 hmem with rfl | hmem
    · exact ⟨_, List.mem_cons_self, hline⟩
    · obtain ⟨l, hl, hdescribes⟩ := ih hmem
      exact ⟨l, List.mem_cons_of_mem _ hl, hdescribes⟩

theorem get?_scalars_of_describes (h : ofText s = .ok map) (hlines : Text.lines s = before ++ line :: after)
    {name value : String} (hline : Describes line (some (.scalar name value)))
    (hlast : ∀ l ∈ after, ∀ value, ¬ Describes l (some (.scalar name value))) :
    map.options.scalars.get? name = some value := by
  obtain ⟨entries, entries', rfl, hafter⟩ := exists_entries_of_ofText h hlines hline
  have hnot : ∀ value, some (.scalar name value) ∉ entries' := by
    intro value hmem
    obtain ⟨l, hl, hdescribes⟩ := exists_line_of_mem hafter hmem
    exact hlast l hl value hdescribes
  rw [options, Table.get?_update (nodup_names_scalars_addAll _), get?_scalars_addAll {} entries hnot]
  rfl

theorem get?_templates_of_describes (h : ofText s = .ok map) (hlines : Text.lines s = before ++ line :: after)
    {name : String} {template : Template} (hline : Describes line (some (.template name template)))
    (hlast : ∀ l ∈ after, ∀ template, ¬ Describes l (some (.template name template))) :
    map.options.templates.get? name = some template := by
  obtain ⟨entries, entries', rfl, hafter⟩ := exists_entries_of_ofText h hlines hline
  have hnot : ∀ template, some (.template name template) ∉ entries' := by
    intro template hmem
    obtain ⟨l, hl, hdescribes⟩ := exists_line_of_mem hafter hmem
    exact hlast l hl template hdescribes
  exact get?_templates_addAll {} entries hnot

/-- The name of an entry without a dot is an identifier. -/
theorem isIdentifier_of_describes {name value : String} (h : Describes line (some (.scalar name value)))
    (hdot : '.' ∉ name.toList) : IsIdentifier name := by
  cases h with
  | @scalar name _ _ hname =>
    obtain ⟨c, r, rfl, hc, hr⟩ := hname
    rw [String.toList_ofList] at hdot
    refine ⟨c, r, String.toList_ofList, hc, fun d hd => ?_⟩
    have hchar := hr d hd
    have hne : d ≠ '.' := fun heq => hdot (heq ▸ List.mem_cons_of_mem c hd)
    simp only [isNameChar, TypeExpr.isNameChar, Bool.or_eq_true, beq_iff_eq] at hchar ⊢
    exact hchar.resolve_right hne

/-! ## Precedence of the options -/

section Precedence

variable {translator : Translator} {scope : Scope}

/-- A name in the table of names is translated by it. -/
theorem translate_scalar {name value : String} (hname : IsIdentifier name)
    (h : translator.options.scalars.get? name = some value) : translator.translate scope name = value := by
  have hparse := TypeExpr.parse_of_isIdentifier hname
  rw [Translator.translate, hparse]
  simp only [Translator.text, Translator.core]
  rw [Translator.nested, Translator.nameText]
  simp only [List.getLast?_nil]
  rw [Translator.simpleText, h]

/-- A generic type in the table of templates, as it is called there, is translated by its template. -/
theorem nested_template {name : TypeName} {template : Template} {arguments : List TypeExpr}
    (hname : name.qualifier = [] ∨ translator.isBase name = false)
    (h : translator.options.templates.get? name.text = some template)
    (hlength : arguments.length = template.parameters.length)
    (hnullable : translator.isNullable name arguments.length = false) :
    translator.nested scope (.generic name arguments) =
      template.fill (arguments.map (translator.nested scope)) := by
  have htemplate : translator.template? name arguments.length = some template := by
    rw [Translator.template?, Translator.knownName?_getD hname, h, Option.filter_some, if_pos (by simp [hlength])]
  rw [Translator.nested, Translator.nestedAll_eq_map]
  simp only [List.length_map, hnullable]
  rw [if_neg Bool.false_ne_true, Translator.genericText, List.length_map, htemplate]

/-- The same for a type that is inside no other one. -/
theorem translate_generic {name : TypeName} {arguments : List TypeExpr}
    (hnullable : translator.isNullable name arguments.length = false) {source : String}
    (h : TypeExpr.parse source = .ok (.generic name arguments)) :
    translator.translate scope source = translator.nested scope (.generic name arguments) := by
  rw [Translator.translate, h]
  simp only [Translator.text, Translator.core_generic_eq hnullable]

end Precedence

/-! ## Effect of the entries -/

theorem isNullable_eq_false {registry : Registry} {name : TypeName} {count : Nat}
    (hname : name.qualifier = [] ∨ (map.translator registry).isBase name = false)
    (h : ¬ (name.text = "Nullable" ∧ count = 1)) : (map.translator registry).isNullable name count = false := by
  by_contra hnullable
  rw [Bool.not_eq_false, Translator.isNullable, Bool.and_eq_true, beq_iff_eq] at hnullable
  obtain ⟨hcount, hwrapper⟩ := hnullable
  have htext := Translator.knownName?_getD hname
  cases hknown : (map.translator registry).knownName? name with
  | none =>
    rw [hknown] at hwrapper
    cases hwrapper
  | some known =>
    rw [hknown] at hwrapper htext
    have heq : known = "Nullable" := by simpa [translator, options] using hwrapper
    exact h ⟨htext ▸ heq, hcount⟩

/-- An entry takes effect that is the last one for its name: for a name without dots, wherever the name
stands; for a generic type, wherever the type is applied under the name of the entry to as many arguments as
the entry has parameters. Left out are names that the base library qualifies, since their qualifier counts
for nothing, and what marks its one argument as optional. -/
theorem entries_take_effect (h : ofText s = .ok map) (hlines : Text.lines s = before ++ line :: after)
    (registry : Registry) (scope : Scope) :
    (∀ name value, Describes line (some (.scalar name value)) →
      (∀ l ∈ after, ∀ value, ¬ Describes l (some (.scalar name value))) → '.' ∉ name.toList →
        (map.translator registry).translate scope name = value) ∧
    ∀ name template, Describes line (some (.template name template)) →
      (∀ l ∈ after, ∀ template, ¬ Describes l (some (.template name template))) →
      ∀ (applied : TypeName) (arguments : List TypeExpr), applied.text = name →
        arguments.length = template.parameters.length →
        applied.qualifier = [] ∨ applied.first ≠ "System" → ¬ (name = "Nullable" ∧ arguments.length = 1) →
        (map.translator registry).nested scope (.generic applied arguments) =
            template.fill (arguments.map ((map.translator registry).nested scope)) ∧
          ∀ source, TypeExpr.parse source = .ok (.generic applied arguments) →
            (map.translator registry).translate scope source =
              template.fill (arguments.map ((map.translator registry).nested scope)) := by
  constructor
  · intro name value hline hlast hdot
    exact translate_scalar (isIdentifier_of_describes hline hdot)
      (get?_scalars_of_describes h hlines hline hlast)
  · rintro name template hline hlast applied arguments rfl hlength hbase hnullable
    have hname : applied.qualifier = [] ∨ (map.translator registry).isBase applied = false :=
      hbase.imp_right fun hne => by simpa [Translator.isBase, translator, options] using hne
    have hnot := isNullable_eq_false hname hnullable
    have hnested := @nested_template (map.translator registry) scope _ _ _ hname
      (get?_templates_of_describes h hlines hline hlast) hlength hnot
    exact ⟨hnested, fun source hsource => (translate_generic hnot hsource).trans hnested⟩

/-- Both kinds of entries in one type map. -/
theorem entries_take_effect_lazy_money :
    ∃ map, ofText "Lazy<T>: {T}\nMoney: string".toList = .ok map ∧
      (map.translator {}).translate {} "Lazy<int>" = "number" ∧
      (map.translator {}).translate {} "Money" = "string" := by
  have hlazy : Describes "Lazy<T>: {T}".toList (some (.template "Lazy" ⟨["T"], "{T}"⟩)) :=
    describes_iff.2 (by decide +kernel)
  have hmoney : Describes "Money: string".toList (some (.scalar "Money" "string")) :=
    describes_iff.2 (by decide +kernel)
  have hlines : Text.lines "Lazy<T>: {T}\nMoney: string".toList =
      ["Lazy<T>: {T}".toList, "Money: string".toList] := by decide +kernel
  have htext : ofText "Lazy<T>: {T}\nMoney: string".toList =
      .ok { scalars := [("Money", "string")], templates := [("Lazy", ⟨["T"], "{T}"⟩)] } := by decide +kernel
  have htokens : TypeExpr.tokens "Lazy<int>" = .ok [.name "Lazy", .less, .name "int", .greater] := by
    decide +kernel
  have hparse : TypeExpr.parse "Lazy<int>" = .ok (.generic ⟨[], "Lazy"⟩ [.named ⟨[], "int"⟩]) :=
    TypeExpr.parse_of_tokens htokens rfl
  have htemplate := (@entries_take_effect _ _ [] ["Money: string".toList] _ htext hlines {} {}).2 _ _ hlazy
    (by
      intro l hl template hbad
      rw [List.mem_singleton.1 hl] at hbad
      cases hbad.unique hmoney) ⟨[], "Lazy"⟩ [.named ⟨[], "int"⟩] rfl rfl (.inl rfl) (by simp)
  have hscalar := (@entries_take_effect _ _ ["Lazy<T>: {T}".toList] [] _ htext hlines {} {}).1 _ _ hmoney
    (by simp) (by decide)
  refine ⟨_, htext, (htemplate.2 _ hparse).trans (by decide +kernel), hscalar⟩

/-- An entry for a name that the base library qualifies is not looked up, nor is one for what marks its
argument as optional: the types are not translated by the templates, although they are applied under the names
of the entries to as many arguments as those have parameters. -/
theorem entries_without_effect :
    ∃ map, ofText "System.Lazy<T>: {T}\nNullable<T>: Maybe<{T}>".toList = .ok map ∧
      Text.lines "System.Lazy<T>: {T}\nNullable<T>: Maybe<{T}>".toList =
        ["System.Lazy<T>: {T}".toList, "Nullable<T>: Maybe<{T}>".toList] ∧
      Describes "System.Lazy<T>: {T}".toList (some (.template "System.Lazy" ⟨["T"], "{T}"⟩)) ∧
      Describes "Nullable<T>: Maybe<{T}>".toList (some (.template "Nullable" ⟨["T"], "Maybe<{T}>"⟩)) ∧
      (∃ arguments, TypeExpr.parse "System.Lazy<int>" = .ok (.generic ⟨["System"], "Lazy"⟩ arguments) ∧
        arguments.length = 1 ∧
        (map.translator {}).translate {} "System.Lazy<int>" ≠
          Template.fill ⟨["T"], "{T}"⟩ (arguments.map ((map.translator {}).nested {}))) ∧
      ∃ arguments, TypeExpr.parse "Nullable<int>" = .ok (.generic ⟨[], "Nullable"⟩ arguments) ∧
        arguments.length = 1 ∧
        (map.translator {}).translate {} "Nullable<int>" ≠
          Template.fill ⟨["T"], "Maybe<{T}>"⟩ (arguments.map ((map.translator {}).nested {})) := by
  have htext : ofText "System.Lazy<T>: {T}\nNullable<T>: Maybe<{T}>".toList =
      .ok { templates := [("System.Lazy", ⟨["T"], "{T}"⟩), ("Nullable", ⟨["T"], "Maybe<{T}>"⟩)] } := by
    decide +kernel
  have hlazyTokens : TypeExpr.tokens "System.Lazy<int>" =
      .ok [.name "System", .dot, .name "Lazy", .less, .name "int", .greater] := by decide +kernel
  have hnullableTokens : TypeExpr.tokens "Nullable<int>" =
      .ok [.name "Nullable", .less, .name "int", .greater] := by decide +kernel
  have hlazy : TypeExpr.parse "System.Lazy<int>" =
      .ok (.generic ⟨["System"], "Lazy"⟩ [.named ⟨[], "int"⟩]) := TypeExpr.parse_of_tokens hlazyTokens rfl
  have hnullable : TypeExpr.parse "Nullable<int>" =
      .ok (.generic ⟨[], "Nullable"⟩ [.named ⟨[], "int"⟩]) := TypeExpr.parse_of_tokens hnullableTokens rfl
  refine ⟨_, htext, by decide +kernel, describes_iff.2 (by decide +kernel),
    describes_iff.2 (by decide +kernel), ⟨_, hlazy, rfl, ?_⟩, _, hnullable, rfl, ?_⟩
  · rw [Translator.translate, hlazy]
    decide +kernel
  · rw [Translator.translate, hnullable]
    decide +kernel

end TypeBridge.TypeMap
