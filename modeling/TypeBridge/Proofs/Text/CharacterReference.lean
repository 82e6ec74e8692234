import TypeBridge.Proofs.Text.Substitution
import TypeBridge.Text.CharacterReference

/-!
# Character references and lines

No character reference runs over the end of a line, so that the references of a text can be resolved line by line.

Results:
* `scanReference_append`, `staysIn_findReference`: what a reference is does not depend on the next line.
* `resolveReferences_append`: the references before a line feed and after it.
-/
namespace TypeBridge.Text

/-! ## Reading up to some character -/

theorem takeWhile_append_cons {p : Char → Bool} {c : Char} (h : p c = false) (s u : List Char) :
    (s ++ c :: u).takeWhile p = s.takeWhile p := by
  induction s with
  | nil => simp [h]
  | cons d s ih => simp only [List.cons_append, List.takeWhile_cons, ih]

theorem dropWhile_append_cons {p : Char → Bool} {c : Char} (h : p c = false) (s u : List Char) :
    (s ++ c :: u).dropWhile p = s.dropWhile p ++ c :: u := by
  induction s with
  | nil => simp [h]
  | cons d s ih =>
    simp only [List.cons_append, List.dropWhile_cons, ih]
    split <;> rfl

/-! ## References before a line feed -/

theorem scanNumber_append {base : Nat} (hbase : base ≤ 16) (s u : List Char) :
    scanNumber base (s ++ '\n' :: u) = (scanNumber base s).map fun (n, rest) => (n, rest ++ '\n' :: u) := by
  have hfeed : (asciiDigit? base '\n').isSome = false := by
    have hdigit : asciiDigit? base '\n' = if 16 < base then some 16 else none := rfl
    rw [hdigit, if_neg (Nat.not_lt.2 hbase)]
    rfl
  unfold scanNumber
  simp only [takeWhile_append_cons (p := fun c => (asciiDigit? base c).isSome) hfeed,
    dropWhile_append_cons (p := fun c => (asciiDigit? base c).isSome) hfeed]
  split
  · rfl
  · cases hrest : s.dropWhile fun c => (asciiDigit? base c).isSome with
    | nil => rfl
    | cons c rest =>
      by_cases hc : c = ';'
      · subst hc
        rfl
      · simp [hc]

theorem length_referenceName_le (s : List Char) : (referenceName s).length ≤ s.length :=
  (List.length_take_le' _ _).trans (List.takeWhile_prefix isReferenceChar).length_le

theorem referenceName_append (s u : List Char) : referenceName (s ++ '\n' :: u) = referenceName s := by
  rw [referenceName, takeWhile_append_cons rfl, referenceName]

/-- What a name at the beginning of a text stands for, when the text does not begin with a number sign. -/
theorem scanReference_named {s : List Char} (h : ∀ c ∈ s.head?, c ≠ '#') : scanReference s =
    if (referenceName s).isEmpty then none
    else
      match s.drop (referenceName s).length with
      | ';' :: rest =>
        match namedReference? (referenceName s) true with
        | some text => some (text, rest)
        | none =>
          match longestReference? (referenceName s) (referenceName s).length with
          | some (text, after) => some (text ++ after ++ [';'], rest)
          | none => some ('&' :: referenceName s ++ [';'], rest)
      | rest =>
        match longestReference? (referenceName s) (referenceName s).length with
        | some (text, after) => some (text ++ after, rest)
        | none => some ('&' :: referenceName s, rest) := by
  unfold scanReference
  split
  · exact absurd rfl (h '#' rfl)
  · exact absurd rfl (h '#' rfl)
  · exact absurd rfl (h '#' rfl)
  · rfl

theorem scanReference_append (s u : List Char) : scanReference (s ++ '\n' :: u) =
    (scanReference s).map fun (text, rest) => (text, rest ++ '\n' :: u) := by
  by_cases hs : ∀ c ∈ s.head?, c ≠ '#'
  · have hs' : ∀ c ∈ (s ++ '\n' :: u).head?, c ≠ '#' := by
      cases s with
      | nil => simp
      | cons c s => simpa using hs
    rw [scanReference_named hs, scanReference_named hs', referenceName_append,
      List.drop_append_of_le_length (length_referenceName_le s)]
    split
    · rfl
    · cases s.drop (referenceName s).length with
      | nil => cases longestReference? (referenceName s) (referenceName s).length <;> rfl
      | cons c rest =>
        by_cases hc : c = ';'
        · subst hc
          simp only [List.cons_append]
          cases namedReference? (referenceName s) true with
          | some text => rfl
          | none => cases longestReference? (referenceName s) (referenceName s).length <;> rfl
        · cases longestReference? (referenceName s) (referenceName s).length <;> simp [hc]
  · obtain ⟨r, rfl⟩ : ∃ r, s = '#' :: r := by
      cases s with
      | nil => exact absurd (by simp) hs
      | cons c r => exact ⟨r, by simpa using hs⟩
    have hnumber (base : Nat) (hbase : base ≤ 16) (t : List Char) :
        (scanNumber base (t ++ '\n' :: u)).map (fun (n, rest) => (numericReference n, rest)) =
          ((scanNumber base t).map fun (n, rest) => (numericReference n, rest)).map
            fun (text, rest) => (text, rest ++ '\n' :: u) := by
      rw [scanNumber_append hbase, Option.map_map, Option.map_map]
      rfl
    match r with
    | [] => exact hnumber 10 (by decide) []
    | 'x' :: t => exact hnumber 16 (by decide) t
    | 'X' :: t => exact hnumber 16 (by decide) t
    | c :: t =>
      by_cases hx : c = 'x'
      · exact hx ▸ hnumber 16 (by decide) t
      · by_cases hX : c = 'X'
        · exact hX ▸ hnumber 16 (by decide) t
        · have hdecimal (t : List Char) : scanReference ('#' :: c :: t) =
              (scanNumber 10 (c :: t)).map fun (n, rest) => (numericReference n, rest) := by
            simp [scanReference, hx, hX]
          rw [List.cons_append, List.cons_append, hdecimal, hdecimal]
          exact hnumber 10 (by decide) (c :: t)

/-! ## All references -/

theorem scanNumber_suffix {base n : Nat} {s rest : List Char} (h : scanNumber base s = some (n, rest)) :
    rest <:+ s := by
  unfold scanNumber at h
  simp only at h
  split at h
  · cases h
  · obtain ⟨-, rfl⟩ := Prod.mk.inj (Option.some.inj h)
    refine List.IsSuffix.trans ?_ (List.dropWhile_suffix fun c => (asciiDigit? base c).isSome)
    split
    · rename_i heq
      rw [heq]
      exact List.suffix_cons _ _
    · exact List.suffix_rfl

theorem scanReference_suffix {s text rest : List Char} (h : scanReference s = some (text, rest)) : rest <:+ s := by
  have hnumber {base : Nat} {t : List Char}
      (h : (scanNumber base t).map (fun (n, rest) => (numericReference n, rest)) = some (text, rest)) : rest <:+ t := by
    obtain ⟨⟨n, rest⟩, hnumber, heq⟩ := Option.map_eq_some_iff.1 h
    obtain ⟨-, rfl⟩ := Prod.mk.inj heq
    exact scanNumber_suffix hnumber
  unfold scanReference at h
  split at h
  · exact ((hnumber h).trans (List.suffix_cons _ _)).trans (List.suffix_cons _ _)
  · exact ((hnumber h).trans (List.suffix_cons _ _)).trans (List.suffix_cons _ _)
  · exact (hnumber h).trans (List.suffix_cons _ _)
  · simp only at h
    split at h
    · cases h
    · refine List.IsSuffix.trans ?_ (List.drop_suffix (referenceName s).length s)
      split at h
      · rename_i after hdrop
        have hrest : rest = after := by
          split at h
          · exact (Prod.mk.inj (Option.some.inj h)).2.symm
          · split at h <;> exact (Prod.mk.inj (Option.some.inj h)).2.symm
        rw [hdrop, hrest]
        exact List.suffix_cons _ _
      · split at h <;> exact (Prod.mk.inj (Option.some.inj h)).2 ▸ List.suffix_rfl

/-- No reference runs over the end of a line. -/
theorem staysIn_findReference (s u : List Char) : StaysIn findReference s ('\n' :: u) := by
  intro t hne _
  obtain ⟨c, r, rfl⟩ := List.exists_cons_of_ne_nil hne
  by_cases hc : c = '&'
  · subst hc
    exact scanReference_append r u
  · have hnone (r : List Char) : findReference (c :: r) = none := by
      simp [findReference, hc]
    rw [List.cons_append, hnone, hnone]
    rfl

theorem advances_findReference : Advances findReference := by
  intro s text rest h
  unfold findReference at h
  split at h
  · obtain ⟨before, hbefore⟩ := scanReference_suffix h
    exact ⟨'&' :: before, List.cons_ne_nil _ _, by rw [List.cons_append, hbefore]⟩
  · cases h

/-- References are resolved line by line. -/
theorem resolveReferences_append (s u : List Char) :
    resolveReferences (s ++ '\n' :: u) = resolveReferences s ++ '\n' :: resolveReferences u := by
  have hfeed : substitute findReference ('\n' :: u) = '\n' :: substitute findReference u := substitute_cons rfl
  rw [resolveReferences, (staysIn_findReference s u).substitute_append advances_findReference, hfeed]
  rfl

end TypeBridge.Text
