import TypeBridge.Proofs.Translation.Structure

/-!
# Whether translated types say what they mean

An optional type is the union of the whole of a type with `null`. The text of an optional function is
another one: ` | null` is appended to the text of the function, where it belongs to the result. A result
that arrives later and has a qualifier is `Promise<void>` also in front of arguments, where that is no type.
In every other type, the text of a type is read as what the type means.

Results:
* `shape_core`: the marks of an optional type count once.
* `written_eq_meaning_iff`: the types whose text has the structure that they mean.
* `written_func_nullable`: the functions whose text is that of another type.

At the end both are put together to what a reader of the text takes the type for.
-/
namespace TypeBridge

namespace TsType

/-- Whether the last alternative of a union is `null`. -/
def allowsNull : TsType → Bool
  | .union _ right => right.isNull
  | _ => false

/-- The union of the whole of a type with `null`, unless it is one already. -/
def withNull (t : TsType) : TsType := if t.allowsNull then t else .union t (.name "null")

theorem allowsNull_withNull (t : TsType) : t.withNull.allowsNull = true := by
  rw [withNull]
  split
  · assumption
  · rfl

theorem WellFormed.withNull {good : String → Prop} {t : TsType} (h : t.WellFormed good) :
    t.withNull.WellFormed good := by
  rw [TsType.withNull]
  split
  · exact h
  · exact .union h (.name isWord_null)

theorem withNull_withNull (t : TsType) : t.withNull.withNull = t.withNull := by
  conv => lhs; rw [withNull]
  rw [if_pos (allowsNull_withNull t)]

theorem isFunction_withNull (t : TsType) : t.withNull.isFunction = false := by
  rw [withNull]
  split
  · rename_i h
    cases t with
    | function parameters result => cases h
    | _ => rfl
  · rfl

theorem allowsNull_of_isOperator {t : TsType} (h : t.isOperator = t.isFunction) : t.allowsNull = false := by
  cases t with
  | union left right => cases h
  | _ => rfl

theorem orNull_orNull (t : TsType) : t.orNull.orNull = t.orNull := by
  fun_induction orNull t with
  | case1 parameters result ih => rw [orNull, ih]
  | case2 t hfunction h => rw [orNull.eq_2 t hfunction, if_pos h]
  | case3 => rfl

theorem orNull_of_not_function {t : TsType} (h : t.isFunction = false) : t.orNull = t.withNull := by
  cases t with
  | function parameters result => cases h
  | _ => rfl

theorem isFunction_orNull (t : TsType) : t.orNull.isFunction = t.isFunction := by
  cases hf : t.isFunction with
  | false => rw [orNull_of_not_function hf, isFunction_withNull]
  | true =>
    cases t with
    | function parameters result => rfl
    | _ => cases hf

theorem withNull_inj {t t' : TsType} (h : t.allowsNull = false) (h' : t'.allowsNull = false) :
    t.withNull = t'.withNull ↔ t = t' := by
  rw [withNull, withNull, if_neg (by simp [h]), if_neg (by simp [h'])]
  simp

/-- The two ways to make a type optional agree on all types but functions. -/
theorem orNull_eq_withNull_iff {t t' : TsType} (h : t.allowsNull = false) (h' : t'.allowsNull = false) :
    t.orNull = t'.withNull ↔ t = t' ∧ t.isFunction = false := by
  cases hf : t.isFunction with
  | false => rw [orNull_of_not_function hf, withNull_inj h h', and_iff_left rfl]
  | true =>
    refine iff_of_false (fun heq => ?_) (by simp)
    have hne := isFunction_orNull t
    rw [heq, isFunction_withNull, hf] at hne
    cases hne

theorem arrays_inj {t t' : TsType} (rank : Nat) : t.arrays rank = t'.arrays rank ↔ t = t' := by
  induction rank with
  | zero => rfl
  | succ rank ih => rw [arrays, arrays, TsType.array.injEq, ih]

theorem positionalFrom_inj {types types' : List TsType} {first : Nat} :
    positionalFrom first types = positionalFrom first types' ↔ types = types' := by
  have hparts : ∀ types : List TsType, (positionalFrom first types).map (·.2) = types := by
    intro types
    rw [positionalFrom, List.map_map]
    exact List.zipIdx_map_fst first types
  exact ⟨fun h => by rw [← hparts types, h, hparts], fun h => by rw [h]⟩

end TsType

namespace TypeExpr

/-- The types that a type is directly made of. -/
def children : TypeExpr → List TypeExpr
  | .named _ => []
  | .generic _ arguments => arguments
  | .array element _ => [element]
  | .nullable inner => [inner]
  | .tuple elements => elements.map (·.2)

/-- The parts of a type, which is one itself. -/
inductive IsPart (part : TypeExpr) : TypeExpr → Prop
  | self : IsPart part part
  | child {child type : TypeExpr} : child ∈ type.children → IsPart part child → IsPart part type

theorem forall_isPart {P : TypeExpr → Prop} {type : TypeExpr} :
    (∀ part, IsPart part type → P part) ↔
      P type ∧ ∀ child ∈ type.children, ∀ part, IsPart part child → P part := by
  constructor
  · exact fun h => ⟨h _ .self, fun child hmem part hpart => h part (.child hmem hpart)⟩
  · rintro ⟨hself, hall⟩ part hpart
    cases hpart with
    | self => exact hself
    | child hmem hpart => exact hall _ hmem part hpart

end TypeExpr

namespace Translator

section Definitions

variable (translator : Translator)

/-- What a type is called that no rule knows when it has arguments. -/
def meaningHead (scope : Scope) (name : TypeName) : String :=
  if translator.isAsync name then name.simple else translator.unknownHead scope name

/-- What a type means, as a structure. -/
def meaning (scope : Scope) : TypeExpr → TsType :=
  translator.shape TsType.withNull (translator.meaningHead scope) scope

/-- Whether a generic type with so many arguments is that of a function. -/
def isDelegateName (known : String) (count : Nat) : Bool :=
  known == "Func" || known == "Action" || known == "Predicate" && count == 1

/-- Whether a type is that of a function. -/
def isDelegate : TypeExpr → Bool
  | .named name => translator.knownName? name == some "Action"
  | .generic name arguments => (translator.knownName? name).any (isDelegateName · arguments.length)
  | _ => false

/-- Whether a type is that of a function that may be missing. -/
def IsOptionalDelegate (type : TypeExpr) : Prop :=
  (translator.core type).1 = true ∧ translator.isDelegate (translator.core type).2 = true

/-- Whether a type is that of a result that arrives later, with a qualifier, but not of one value. -/
def IsMisappliedAsync : TypeExpr → Prop
  | .generic name arguments =>
    name.qualifier ≠ [] ∧ translator.isAsync name = true ∧ arguments.length ≠ 1
  | _ => False

/-- Whether the rule for a type says what the type means. -/
def IsFaithful (type : TypeExpr) : Prop :=
  ¬ translator.IsOptionalDelegate type ∧ ¬ translator.IsMisappliedAsync type

end Definitions

variable {registry : Registry} {scope : Scope}

/-! ## Kinds of structures -/

/-- Of the known generic types, those of functions have the structure of a function, and none that of a
union. -/
theorem kind_knownStructure? (known : String) {parts : List TsType} (hne : parts ≠ []) :
    ((usual registry).knownStructure? known parts).any TsType.isFunction =
        isDelegateName known parts.length ∧
      ((usual registry).knownStructure? known parts).any TsType.isOperator =
        isDelegateName known parts.length := by
  by_cases hdelegate : known = "Func" ∨ known = "Action" ∨ known = "Predicate"
  · match parts with
    | [part] =>
      rcases hdelegate with rfl | rfl | rfl <;>
        simp [knownStructure?, usual, isDelegateName, TsType.isFunction, TsType.isOperator]
    | part :: part' :: parts =>
      rcases hdelegate with rfl | rfl | rfl <;>
        simp [knownStructure?, usual, isDelegateName, TsType.isFunction, TsType.isOperator]
  · obtain ⟨hfunc, haction, hpredicate⟩ : known ≠ "Func" ∧ known ≠ "Action" ∧ known ≠ "Predicate" := by
      simpa [not_or] using hdelegate
    have hname : isDelegateName known parts.length = false := by
      simp [isDelegateName, hfunc, haction, hpredicate]
    rw [hname]
    unfold knownStructure?
    simp only [if_neg hfunc, if_neg haction, if_neg hpredicate]
    split
    · split_ifs <;> exact ⟨rfl, rfl⟩
    · split_ifs <;> exact ⟨rfl, rfl⟩

section Shape

variable {optional : TsType → TsType} {head : TypeName → String}

theorem shape_generic {name : TypeName} {arguments : List TypeExpr}
    (h : (usual registry).isNullable name arguments.length = false) :
    (usual registry).shape optional head scope (.generic name arguments) =
      (((usual registry).knownName? name).bind ((usual registry).knownStructure? ·
        (arguments.map ((usual registry).shape optional head scope)))).getD
        (.application (head name) (arguments.map ((usual registry).shape optional head scope))) := by
  rw [shape, shapeAll_eq_map]
  simp only [List.length_map]
  rw [if_neg (by simp [h])]

theorem shape_nullable {name : TypeName} {argument : TypeExpr}
    (h : (usual registry).isNullable name 1 = true) :
    (usual registry).shape optional head scope (.generic name [argument]) =
      optional ((usual registry).shape optional head scope argument) := by
  rw [shape, shapeAll_eq_map]
  exact if_pos h

/-- The structure of a type that is not optional as a whole is that of a function or that of neither a
function nor a union. -/
theorem kind_shape {type : TypeExpr} (h : type.WellFormed) (hcore : ((usual registry).core type).1 = false) :
    ((usual registry).shape optional head scope type).isFunction = (usual registry).isDelegate type ∧
      ((usual registry).shape optional head scope type).isOperator = (usual registry).isDelegate type := by
  cases h with
  | @named name _ =>
    rw [shape, namedStructure, isDelegate]
    split
    · rename_i hasync
      have hne : (usual registry).knownName? name ≠ some "Action" := by
        intro heq
        rw [isAsync_iff heq] at hasync
        simp [usual] at hasync
      exact ⟨(beq_false_of_ne hne).symm, (beq_false_of_ne hne).symm⟩
    · split
      · rename_i haction
        exact ⟨(beq_iff_eq.2 haction).symm, (beq_iff_eq.2 haction).symm⟩
      · rename_i haction
        exact ⟨(beq_false_of_ne haction).symm, (beq_false_of_ne haction).symm⟩
  | @generic name arguments _ hne _ =>
    cases hnullable : (usual registry).isNullable name arguments.length with
    | true =>
      obtain ⟨argument, rfl, hone⟩ := eq_singleton_of_isNullable hnullable
      rw [core_nullable_eq hone] at hcore
      cases hcore
    | false =>
      rw [shape_generic hnullable, isDelegate]
      cases (usual registry).knownName? name with
      | none => exact ⟨rfl, rfl⟩
      | some known =>
        have hparts : arguments.map ((usual registry).shape optional head scope) ≠ [] := by simpa using hne
        obtain ⟨hfunction, hoperator⟩ := @kind_knownStructure? registry known _ hparts
        rw [List.length_map] at hfunction hoperator
        rw [Option.bind_some, Option.any_some]
        cases hstructure : (usual registry).knownStructure? known
            (arguments.map ((usual registry).shape optional head scope)) with
        | none =>
          rw [hstructure] at hfunction hoperator
          exact ⟨hfunction, hoperator⟩
        | some t =>
          rw [hstructure] at hfunction hoperator
          exact ⟨hfunction, hoperator⟩
  | @array element rank _ hrank =>
    obtain ⟨rank, rfl⟩ := Nat.exists_eq_add_of_le' hrank
    rw [shape]
    exact ⟨rfl, rfl⟩
  | nullable _ => cases hcore
  | tuple _ _ _ _ =>
    rw [shape]
    exact ⟨rfl, rfl⟩

/-- However many marks of an optional type stand around a type, they count once. -/
theorem shape_core (hidem : ∀ t, optional (optional t) = optional t) {type : TypeExpr}
    (h : type.WellFormed) :
    (usual registry).shape optional head scope type =
      bif ((usual registry).core type).1 then
        optional ((usual registry).shape optional head scope ((usual registry).core type).2)
      else (usual registry).shape optional head scope ((usual registry).core type).2 := by
  have hstep : ∀ {t : TsType} {b : Bool}, optional (bif b then optional t else t) = optional t := by
    intro t b
    cases b with
    | false => rfl
    | true => exact hidem t
  induction h with
  | named _ => rfl
  | @generic name arguments _ _ _ ih =>
    cases hnullable : (usual registry).isNullable name arguments.length with
    | true =>
      obtain ⟨argument, rfl, hone⟩ := eq_singleton_of_isNullable hnullable
      rw [shape_nullable hone, core_nullable_eq hone, ih argument (by simp), hstep]
      rfl
    | false =>
      rw [core_generic_eq hnullable]
      rfl
  | array _ _ _ => rfl
  | nullable _ ih =>
    rw [shape, core, ih, hstep]
    rfl
  | tuple _ _ _ _ _ => rfl

/-- What is left when the marks of an optional type are taken away has none. -/
theorem core_spec {type : TypeExpr} (h : type.WellFormed) :
    ((usual registry).core type).2.WellFormed ∧
      ((usual registry).core ((usual registry).core type).2).1 = false := by
  refine ⟨wellFormed_core h, ?_⟩
  induction h with
  | @generic name arguments _ _ _ ih =>
    cases hnullable : (usual registry).isNullable name arguments.length with
    | true =>
      obtain ⟨argument, rfl, hone⟩ := eq_singleton_of_isNullable hnullable
      rw [core_nullable_eq hone]
      exact ih argument (by simp)
    | false => rw [core_generic_eq hnullable, core_generic_eq hnullable]
  | nullable _ ih => exact ih
  | _ => rfl

end Shape

/-! ## Where the text says what the type means -/

/-- The text of an optional type says what it means unless the type is that of a function. -/
theorem orNull_written_eq_iff {type : TypeExpr} (h : type.WellFormed) :
    ((usual registry).written scope type).orNull = ((usual registry).meaning scope type).withNull ↔
      (usual registry).written scope type = (usual registry).meaning scope type ∧
        (usual registry).isDelegate ((usual registry).core type).2 = false := by
  obtain ⟨hwf, hcore⟩ := @core_spec registry type h
  obtain ⟨hfunction, hoperator⟩ := @kind_shape registry scope TsType.orNull
    ((usual registry).unknownHead scope) _ hwf hcore
  obtain ⟨hfunction', hoperator'⟩ := @kind_shape registry scope TsType.withNull
    ((usual registry).meaningHead scope) _ hwf hcore
  have hiff := TsType.orNull_eq_withNull_iff
    (TsType.allowsNull_of_isOperator (hoperator.trans hfunction.symm))
    (TsType.allowsNull_of_isOperator (hoperator'.trans hfunction'.symm))
  rw [hfunction] at hiff
  rw [written, meaning, shape_core TsType.orNull_orNull h, shape_core TsType.withNull_withNull h]
  cases ((usual registry).core type).1 with
  | false => exact hiff
  | true =>
    rw [cond_true, cond_true, TsType.orNull_orNull, TsType.withNull_withNull, hiff]
    tauto

theorem dropLast_getLastD_inj {α : Type} {l l' : List α} (hne : l ≠ []) (hne' : l' ≠ []) (d : α) :
    l.dropLast = l'.dropLast ∧ l.getLastD d = l'.getLastD d ↔ l = l' := by
  have hsplit : ∀ {l : List α}, l ≠ [] → l.dropLast ++ [l.getLastD d] = l := by
    intro l hne
    rw [List.getLastD_eq_getLast?, List.getLast?_eq_some_getLast hne]
    exact List.dropLast_append_getLast hne
  constructor
  · rintro ⟨hinit, hlast⟩
    rw [← hsplit hne, hinit, hlast, hsplit hne']
  · rintro rfl
    exact ⟨rfl, rfl⟩

/-- The rules tell types with different arguments apart. -/
theorem knownStructure?_inj (known : String) {parts parts' : List TsType} (hne : parts ≠ [])
    (hlength : parts.length = parts'.length) :
    ((usual registry).knownStructure? known parts = none ↔
      (usual registry).knownStructure? known parts' = none) ∧
    ((usual registry).knownStructure? known parts ≠ none →
      ((usual registry).knownStructure? known parts = (usual registry).knownStructure? known parts' ↔
        parts = parts')) := by
  match parts, parts' with
  | [part], [part'] =>
    rw [knownStructure?, knownStructure?]
    split_ifs <;> simp [TsType.positionalFrom_inj]
  | part :: second :: parts, part' :: second' :: parts' =>
    have hfunc := @dropLast_getLastD_inj TsType (part :: second :: parts) (part' :: second' :: parts')
      (by simp) (by simp) (.name "")
    unfold knownStructure?
    simp only
    rw [hlength]
    split_ifs
    · simp
    · simp
    · simp only [Option.some.injEq, TsType.function.injEq, TsType.positionalFrom_inj, hfunc]
      simp
    · simp [TsType.positionalFrom_inj]
    · simp

theorem knownStructure?_func (parts : List TsType) (result : TsType) :
    (usual registry).knownStructure? "Func" (parts ++ [result]) =
      some (.function (TsType.positionalFrom 0 parts) result) := by
  match parts with
  | [] => simp [knownStructure?, usual, TsType.positionalFrom]
  | part :: parts =>
    have hlast : (part :: (parts ++ [result])).getLastD (.name "") = result := by
      rw [← List.cons_append, List.getLastD_concat]
    have hinit : (part :: (parts ++ [result])).dropLast = part :: parts := by
      rw [← List.cons_append, List.dropLast_concat]
    cases hrest : parts ++ [result] with
    | nil => simp at hrest
    | cons second rest =>
      rw [hrest] at hlast hinit
      rw [List.cons_append, hrest, knownStructure?, hinit, hlast]
      · simp [usual]
      · intro single heq
        cases heq

/-- Results that arrive later are known with one argument only. -/
theorem knownStructure?_async {known : String} (h : (usual registry).options.asyncResults.contains known)
    (parts : List TsType) : (usual registry).knownStructure? known parts = none ↔ parts.length ≠ 1 := by
  have hmem : known = "Task" ∨ known = "ValueTask" := by simpa [usual] using h
  cases parts with
  | nil => rcases hmem with rfl | rfl <;> simp [knownStructure?, usual]
  | cons part parts =>
    cases parts with
    | nil => rcases hmem with rfl | rfl <;> simp [knownStructure?, usual]
    | cons second parts => rcases hmem with rfl | rfl <;> simp [knownStructure?, usual]

/-- In front of arguments, the text of a name is the name unless that is the name of a result that arrives
later, with a qualifier. -/
theorem unknownHead_eq_iff (name : TypeName) :
    (usual registry).unknownHead scope name = (usual registry).meaningHead scope name ↔
      ¬ (name.qualifier ≠ [] ∧ (usual registry).isAsync name = true) := by
  rw [meaningHead]
  split
  · rename_i hasync
    rw [unknownHead]
    split
    · rename_i hempty
      simp [List.isEmpty_iff.1 hempty]
    · rename_i hne
      have hqualifier : name.qualifier ≠ [] := fun hnil => hne (by rw [hnil]; rfl)
      refine iff_of_false (fun heq => ?_) (not_not_intro ⟨hqualifier, hasync⟩)
      cases hknown : (usual registry).knownName? name with
      | none => simp [isAsync, hknown] at hasync
      | some known =>
        rw [isAsync_iff hknown] at hasync
        obtain ⟨scope', -, htext⟩ := @nameText_of_known _ scope _ _ hknown
        have hmem : known = "Task" ∨ known = "ValueTask" := by simpa [usual] using hasync
        rw [htext, simpleText_async hasync, simple_of_knownName? hknown] at heq
        rcases hmem with rfl | rfl <;> simp at heq
  · rename_i hasync
    exact iff_of_true rfl fun h => hasync h.2

/-- A generic type that is not a mark of an optional one. -/
theorem written_generic_eq_iff {name : TypeName} {arguments : List TypeExpr} (hne : arguments ≠ [])
    (h : (usual registry).isNullable name arguments.length = false) :
    (usual registry).written scope (.generic name arguments) =
        (usual registry).meaning scope (.generic name arguments) ↔
      ¬ (usual registry).IsMisappliedAsync (.generic name arguments) ∧
        ∀ type ∈ arguments, (usual registry).written scope type = (usual registry).meaning scope type := by
  have hmap : arguments.map ((usual registry).written scope) =
      arguments.map ((usual registry).meaning scope) ↔
        ∀ type ∈ arguments, (usual registry).written scope type = (usual registry).meaning scope type :=
    List.map_inj_left
  have hhead := @unknownHead_eq_iff registry scope name
  rw [written, meaning, shape_generic h, shape_generic h, ← written, ← meaning, ← hmap, IsMisappliedAsync]
  cases hknown : (usual registry).knownName? name with
  | none =>
    have hasync : (usual registry).isAsync name = false := by simp [isAsync, hknown]
    rw [hasync] at hhead ⊢
    rw [Option.bind_none, Option.bind_none, Option.getD_none, Option.getD_none, TsType.application.injEq,
      hhead]
    simp
  | some known =>
    have hparts : arguments.map ((usual registry).written scope) ≠ [] := by simpa using hne
    obtain ⟨hnone, hinj⟩ := @knownStructure?_inj registry known
      (arguments.map ((usual registry).written scope)) (arguments.map ((usual registry).meaning scope))
      hparts (by simp)
    have hasync : (usual registry).isAsync name = true →
        ((usual registry).knownStructure? known (arguments.map ((usual registry).written scope)) = none ↔
          arguments.length ≠ 1) := by
      intro hasync
      rw [isAsync_iff hknown] at hasync
      rw [knownStructure?_async hasync, List.length_map]
    rw [Option.bind_some, Option.bind_some]
    cases hw : (usual registry).knownStructure? known (arguments.map ((usual registry).written scope)) with
    | none =>
      have hmisapplied : ¬ (name.qualifier ≠ [] ∧ (usual registry).isAsync name = true) ↔
          ¬ (name.qualifier ≠ [] ∧ (usual registry).isAsync name = true ∧ arguments.length ≠ 1) :=
        not_congr ⟨fun h => ⟨h.1, h.2, (hasync h.2).1 hw⟩, fun h => ⟨h.1, h.2.1⟩⟩
      rw [hnone.1 hw, Option.getD_none, Option.getD_none, TsType.application.injEq, hhead, hmisapplied]
    | some t =>
      cases hm : (usual registry).knownStructure? known
          (arguments.map ((usual registry).meaning scope)) with
      | none => cases hw.symm.trans (hnone.2 hm)
      | some t' =>
        rw [hw, hm, Option.some.injEq] at hinj
        rw [Option.getD_some, Option.getD_some, hinj (Option.some_ne_none t)]
        have hlength : (usual registry).isAsync name = true → arguments.length = 1 := by
          intro h
          by_contra hone
          cases hw.symm.trans ((hasync h).2 hone)
        exact (and_iff_right fun hbad => hbad.2.2 (hlength hbad.2.1)).symm

/-- The text of a type has the structure that the type means just when that is so of the rule for each of
its parts. -/
theorem written_eq_meaning_iff {type : TypeExpr} (h : type.WellFormed) :
    (usual registry).written scope type = (usual registry).meaning scope type ↔
      ∀ part, TypeExpr.IsPart part type → (usual registry).IsFaithful part := by
  rw [TypeExpr.forall_isPart]
  induction h with
  | named _ =>
    rw [written, meaning, shape, shape]
    simp [IsFaithful, IsOptionalDelegate, IsMisappliedAsync, core, TypeExpr.children]
  | @generic name arguments _ hne hall ih =>
    cases hnullable : (usual registry).isNullable name arguments.length with
    | true =>
      obtain ⟨argument, rfl, hone⟩ := eq_singleton_of_isNullable hnullable
      have hself : (usual registry).IsFaithful (.generic name [argument]) ↔
          (usual registry).isDelegate ((usual registry).core argument).2 = false := by
        simp [IsFaithful, IsOptionalDelegate, IsMisappliedAsync, core_nullable_eq hone]
      rw [written, meaning, shape_nullable hone, shape_nullable hone, ← written, ← meaning,
        orNull_written_eq_iff (hall argument (by simp)), ih argument (by simp), hself, and_comm,
        ← TypeExpr.forall_isPart]
      simp [TypeExpr.children]
    | false =>
      have hself : (usual registry).IsFaithful (.generic name arguments) ↔
          ¬ (usual registry).IsMisappliedAsync (.generic name arguments) := by
        simp [IsFaithful, IsOptionalDelegate, core_generic_eq hnullable]
      rw [written_generic_eq_iff hne hnullable, hself]
      refine and_congr_right fun _ => forall₂_congr fun type htype => ?_
      rw [ih type htype, ← TypeExpr.forall_isPart]
  | @array element rank _ _ ih =>
    rw [written, meaning, shape, shape, ← written, ← meaning, TsType.arrays_inj, ih,
      ← TypeExpr.forall_isPart]
    simp [IsFaithful, IsOptionalDelegate, IsMisappliedAsync, core, TypeExpr.children]
  | @nullable inner hinner ih =>
    rw [written, meaning, shape, shape, ← written, ← meaning, orNull_written_eq_iff hinner, ih,
      ← TypeExpr.forall_isPart]
    simp [IsFaithful, IsOptionalDelegate, IsMisappliedAsync, core, TypeExpr.children, and_comm]
  | @tuple elements _ _ _ _ ih =>
    have hself : (usual registry).IsFaithful (.tuple elements) := by
      simp [IsFaithful, IsOptionalDelegate, IsMisappliedAsync, core]
    have hparts : (usual registry).written scope (.tuple elements) =
        (usual registry).meaning scope (.tuple elements) ↔ ∀ e ∈ elements,
          (usual registry).written scope e.2 = (usual registry).meaning scope e.2 := by
      rw [written, meaning, shape, shape, shapeElements_eq_map, shapeElements_eq_map, TsType.tuple.injEq]
      exact List.map_inj_left
    rw [hparts, TypeExpr.children, List.forall_mem_map, and_iff_right hself]
    refine forall₂_congr fun e he => ?_
    rw [ih e he, ← TypeExpr.forall_isPart]

/-! ## Reading the text of a type -/

theorem wellFormed_meaning (hscope : ∀ owner ∈ scope.types, TsType.IsWord owner) {type : TypeExpr}
    (h : type.WellFormed) : ((usual registry).meaning scope type).WellFormed TsType.IsWord := by
  refine wellFormed_shape (fun _ => id) (fun _ => TsType.WellFormed.withNull) (fun name hname haction => ?_)
    hscope h
  rw [meaningHead]
  split
  · exact hname.isWord_simple
  · rename_i hasync
    exact isWord_unknownHead hname hscope haction hasync

/-- What is said of an optional function is said of the same function with an optional result. -/
theorem written_func_nullable {func : TypeName} (hfunc : (usual registry).knownName? func = some "Func")
    (arguments : List TypeExpr) (result : TypeExpr) :
    (usual registry).written scope (.generic func (arguments ++ [.nullable result])) =
      (usual registry).written scope (.nullable (.generic func (arguments ++ [result]))) := by
  have hnullable : ∀ count, (usual registry).isNullable func count = false := by
    intro count
    rw [isNullable, hfunc]
    simp [usual]
  have hwritten : ∀ last, (usual registry).written scope (.generic func (arguments ++ [last])) =
      .function (TsType.positionalFrom 0 (arguments.map ((usual registry).written scope)))
        ((usual registry).written scope last) := by
    intro last
    rw [written, shape_generic (hnullable _), hfunc, Option.bind_some, List.map_append, ← written,
      List.map_singleton, knownStructure?_func, Option.getD_some]
  have hlast : (usual registry).written scope (.nullable result) =
      ((usual registry).written scope result).orNull := by
    rw [written, shape]
  rw [hwritten, hlast, written, shape, ← written, hwritten, TsType.orNull]

/-- The text of a type inside another one is read as what the type means just when the type has no part that
is an optional function or a result that arrives later, with a qualifier, but not of one value. The text of
an optional function is always that of the function with an optional result. -/
theorem reads_nested_iff (hscope : ∀ owner ∈ scope.types, TsType.IsWord owner) {source : String}
    {type : TypeExpr} (h : TypeExpr.parse source = .ok type) :
    ((∀ t, TsType.Reads ((usual registry).nested scope type) t ↔ t = (usual registry).meaning scope type) ↔
        ∀ part, TypeExpr.IsPart part type → (usual registry).IsFaithful part) ∧
      ∀ (func : TypeName) (arguments : List TypeExpr) (result : TypeExpr),
        (usual registry).knownName? func = some "Func" → type = .generic func (arguments ++ [result]) →
          (usual registry).nested scope (.generic func (arguments ++ [.nullable result])) =
            (usual registry).nested scope (.nullable type) := by
  have hwf := TypeExpr.wellFormed_of_parse h
  have htext := @toList_nested scope registry hscope type hwf
  refine ⟨?_, fun func arguments result hfunc htype => ?_⟩
  · rw [← @written_eq_meaning_iff registry scope type hwf]
    constructor
    · intro hreads
      rcases TsType.wellFormed_or_gap (@wellFormed_written scope registry hscope type hwf) with hword | hgap
      · exact (hreads _).1 ((TsType.reads_print hword htext _).2 rfl)
      · rw [← htext] at hgap
        exact absurd ((hreads _).2 rfl) (TsType.not_reads_of_isInfix hgap _)
    · intro heq t
      rw [heq] at htext
      exact TsType.reads_print (wellFormed_meaning hscope hwf) htext t
  · subst htype
    cases hwf with
    | generic hname _ hall =>
      have hresult : ∀ type ∈ arguments ++ [.nullable result], type.WellFormed := by
        intro type hmem
        rcases List.mem_append.1 hmem with hmem | hmem
        · exact hall type (List.mem_append_left _ hmem)
        · rw [List.mem_singleton.1 hmem]
          exact .nullable (hall result (by simp))
      rw [← String.toList_inj, toList_nested hscope (.generic hname (by simp) hresult),
        toList_nested hscope (.nullable (.generic hname (by simp) hall)), written_func_nullable hfunc]

/-- The elements of a list of optional functions are read as functions with an optional result. -/
theorem not_reads_list_of_optional_func :
    ∃ type, TypeExpr.parse "List<Func<int>?>" = .ok type ∧
      (usual {}).nested {} type = "(() => number | null)[]" ∧
      ¬ ∀ t, TsType.Reads ((usual {}).nested {} type) t ↔ t = (usual {}).meaning {} type := by
  have htokens : TypeExpr.tokens "List<Func<int>?>" =
      .ok [.name "List", .less, .name "Func", .less, .name "int", .greater, .question, .greater] := by
    decide +kernel
  have hparse : TypeExpr.parse "List<Func<int>?>" =
      .ok (.generic ⟨[], "List"⟩ [.nullable (.generic ⟨[], "Func"⟩ [.named ⟨[], "int"⟩])]) :=
    TypeExpr.parse_of_tokens htokens rfl
  have hscope : ∀ owner ∈ ({} : Scope).types, TsType.IsWord owner := by
    intro owner howner
    cases howner
  have hdelegate : (usual {}).IsOptionalDelegate (.nullable (.generic ⟨[], "Func"⟩ [.named ⟨[], "int"⟩])) :=
    ⟨rfl, rfl⟩
  obtain ⟨hiff, -⟩ := @reads_nested_iff ({} : Registry) ({} : Scope) hscope "List<Func<int>?>" _ hparse
  refine ⟨_, hparse, by decide +kernel, fun hreads => ?_⟩
  have hfaithful := hiff.1 hreads _ (.child (List.mem_singleton_self _) .self)
  exact hfaithful.1 hdelegate

end Translator

end TypeBridge
