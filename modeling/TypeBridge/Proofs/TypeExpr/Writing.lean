import TypeBridge.Proofs.TypeExpr.WellFormed

/-!
# How tokens are written

Tokens can be written in many ways: with any blanks between them, and with `@` before a name. The one thing to heed is
that a name goes on as far as it can, so that nothing may follow it directly with which it could go on. The tokens that
are found in a text are exactly those that it is a way of writing.

Results:
* `scan_of_writes`, `writes_of_scan`: what is written is found, and what is found is written.
* `tokens_eq_ok_iff`: the tokens of a text.
* `writes_write`: one way of writing tokens, with blanks only where they are needed.
-/
namespace TypeBridge.TypeExpr

/-- What it means that a name ends before a text. -/
def EndsIdentifier (s : List Char) : Prop := ∀ c ∈ s.head?, isNameChar c = false

/-- The ways of writing tokens. -/
inductive Writes : List Token → List Char → Prop
  | done : Writes [] []
  | blank {c : Char} {ts : List Token} {s : List Char} :
    Text.isBlank c = true → Writes ts s → Writes ts (c :: s)
  | mark {t : Token} {ts : List Token} {s : List Char} :
    (∀ text, t ≠ .name text) → Writes ts s → Writes (t :: ts) (t.text.toList ++ s)
  | name {text : String} {ts : List Token} {s : List Char} :
    IsIdentifier text → EndsIdentifier s → Writes ts s → Writes (.name text :: ts) (text.toList ++ s)
  | verbatim {text : String} {ts : List Token} {s : List Char} :
    IsIdentifier text → EndsIdentifier s → Writes ts s → Writes (.name text :: ts) ('@' :: (text.toList ++ s))

/-! ## What is written is found -/

theorem endsIdentifier_dropWhile (s : List Char) : EndsIdentifier (s.dropWhile isNameChar) := by
  intro c hc
  have hnot := List.head?_dropWhile_not isNameChar s
  rw [hc] at hnot
  exact hnot

theorem EndsIdentifier.takeWhile_eq {s : List Char} (h : EndsIdentifier s) : s.takeWhile isNameChar = [] := by
  cases s with
  | nil => rfl
  | cons c s => rw [List.takeWhile_cons_of_neg (by simp [h c rfl])]

theorem takeWhile_append_of_endsIdentifier {r s : List Char} (hr : ∀ d ∈ r, isNameChar d = true)
    (hs : EndsIdentifier s) : (r ++ s).takeWhile isNameChar = r := by
  rw [List.takeWhile_append_of_pos hr, hs.takeWhile_eq, List.append_nil]

theorem tokenAt?_of_mark {t : Token} (h : ∀ text, t ≠ .name text) :
    ∃ c r, t.text.toList = c :: r ∧ Text.isBlank c = false ∧ ∀ s, tokenAt? (c :: (r ++ s)) = some (t, r.length) := by
  cases t with
  | name text => exact absurd rfl (h text)
  | _ => exact ⟨_, _, rfl, rfl, fun _ => rfl⟩

/-- A token at the beginning of a text is the first one that is found. -/
theorem scan_token {c : Char} {r s : List Char} {t : Token} {ts : List Token} (offset : Nat)
    (hblank : Text.isBlank c = false) (htoken : tokenAt? (c :: (r ++ s)) = some (t, r.length))
    (hrest : ∀ offset, scan 0 offset s = .ok ts) : scan 0 offset (c :: (r ++ s)) = .ok (t :: ts) := by
  rw [scan, if_neg (by simp [hblank]), htoken]
  simp only [scan_eq_drop r.length, List.drop_left, hrest]

/-- All tokens that are written are found, wherever the text begins. -/
theorem scan_of_writes {ts : List Token} {s : List Char} (h : Writes ts s) (offset : Nat) :
    scan 0 offset s = .ok ts := by
  induction h generalizing offset with
  | done => rfl
  | blank hblank _ ih => rw [scan, if_pos hblank, ih]
  | @mark t ts s hmark _ ih =>
    obtain ⟨c, r, htext, hblank, htoken⟩ := tokenAt?_of_mark hmark
    rw [htext, List.cons_append]
    exact scan_token offset hblank (htoken s) ih
  | @name text ts s hid hends _ ih =>
    obtain ⟨c, r, htext, hc, hr⟩ := hid
    rw [htext, List.cons_append]
    refine scan_token offset (not_isBlank_of_isNameChar (isNameChar_of_isNameStart hc)) ?_ ih
    rw [tokenAt?_of_isNameStart hc, takeWhile_append_of_endsIdentifier hr hends, ← htext, String.ofList_toList]
  | @verbatim text ts s hid hends _ ih =>
    obtain ⟨c, r, htext, hc, hr⟩ := hid
    rw [htext, List.cons_append]
    refine @scan_token '@' (c :: r) s _ _ offset rfl ?_ ih
    rw [List.cons_append, tokenAt?, if_pos hc]
    simp only [takeWhile_append_of_endsIdentifier hr hends]
    rw [← htext, String.ofList_toList, htext]
    rfl

/-! ## What is found is written -/

/-- A name is written up to where it ends. -/
theorem isIdentifier_takeWhile {c : Char} (hc : isNameStart c = true) (r : List Char) :
    IsIdentifier (.ofList (c :: r.takeWhile isNameChar)) ∧ EndsIdentifier (r.drop (r.takeWhile isNameChar).length) ∧
      c :: r = (String.ofList (c :: r.takeWhile isNameChar)).toList ++ r.drop (r.takeWhile isNameChar).length := by
  have hdrop : r.drop (r.takeWhile isNameChar).length = r.dropWhile isNameChar := by
    calc r.drop (r.takeWhile isNameChar).length
        = (r.takeWhile isNameChar ++ r.dropWhile isNameChar).drop (r.takeWhile isNameChar).length := by
          rw [List.takeWhile_append_dropWhile]
      _ = r.dropWhile isNameChar := List.drop_left
  refine ⟨⟨c, _, String.toList_ofList, hc, List.all_eq_true.1 List.all_takeWhile⟩, ?_, ?_⟩
  · rw [hdrop]
    exact endsIdentifier_dropWhile r
  · rw [hdrop, String.toList_ofList, List.cons_append, List.takeWhile_append_dropWhile]

/-- A token that is found at the beginning of a text is written there, before what is left of the text. -/
theorem writes_of_tokenAt? {c : Char} {r : List Char} {t : Token} {taken : Nat} {ts : List Token}
    (htoken : tokenAt? (c :: r) = some (t, taken)) (hrest : Writes ts (r.drop taken)) : Writes (t :: ts) (c :: r) := by
  cases beginsToken_of_tokenAt? htoken with
  | verbatim r hc =>
    obtain ⟨hid, hends, htext⟩ := isIdentifier_takeWhile hc r
    rw [htext]
    exact .verbatim hid hends hrest
  | colons r => exact .mark (by simp) hrest
  | name r hc =>
    obtain ⟨hid, hends, htext⟩ := isIdentifier_takeWhile hc r
    rw [htext]
    exact .name hid hends hrest
  | mark r hmark =>
    obtain ⟨hne, htext⟩ := text_of_mark? hmark
    have hwrites := Writes.mark hne hrest
    rwa [htext, List.drop_zero] at hwrites

/-- A text is a way of writing the tokens that are found in it. -/
theorem writes_of_scan {taken offset : Nat} {s : List Char} {ts : List Token} (h : scan taken offset s = .ok ts) :
    Writes ts (s.drop taken) := by
  fun_induction scan taken offset s generalizing ts with
  | case1 =>
    cases h
    rw [List.drop_nil]
    exact .done
  | case2 _ _ _ _ ih => exact ih h
  | case3 _ _ _ hblank ih => exact .blank hblank (ih h)
  | case4 => cases h
  | case5 => cases h
  | case6 _ _ _ _ _ _ htoken _ hscan ih =>
    cases h
    exact writes_of_tokenAt? htoken (ih hscan)

/-- The tokens of a text are those that it is a way of writing. -/
theorem tokens_eq_ok_iff {text : String} {ts : List Token} : tokens text = .ok ts ↔ Writes ts text.toList :=
  ⟨fun h => writes_of_scan h, fun h => scan_of_writes h 0⟩

/-! ## One way of writing tokens -/

/-- Tokens with a blank between two names and no other blanks. -/
def write : List Token → List Char
  | [] => []
  | .name first :: .name second :: ts => first.toList ++ ' ' :: write (.name second :: ts)
  | t :: ts => t.text.toList ++ write ts

theorem endsIdentifier_write {t : Token} (h : ∀ text, t ≠ .name text) (ts : List Token) :
    EndsIdentifier (write (t :: ts)) := by
  cases t with
  | name text => exact absurd rfl (h text)
  | _ => rintro c ⟨⟩; rfl

theorem writes_write {ts : List Token} (h : ∀ text, .name text ∈ ts → IsIdentifier text) : Writes ts (write ts) := by
  fun_induction write ts with
  | case1 => exact .done
  | case2 first second ts ih =>
    have hrest := ih fun text htext => h text (List.mem_cons_of_mem _ htext)
    refine .name (h first List.mem_cons_self) ?_ (.blank rfl hrest)
    rintro c ⟨⟩
    rfl
  | case3 t ts hnot ih =>
    have hrest := ih fun text htext => h text (List.mem_cons_of_mem _ htext)
    by_cases hname : ∃ text, t = .name text
    · obtain ⟨text, rfl⟩ := hname
      refine .name (h text List.mem_cons_self) ?_ hrest
      cases ts with
      | nil => rintro c ⟨⟩
      | cons second ts => exact endsIdentifier_write (fun other heq => hnot text other ts rfl (by rw [heq])) ts
    · exact .mark (fun text heq => hname ⟨text, heq⟩) hrest

end TypeBridge.TypeExpr
